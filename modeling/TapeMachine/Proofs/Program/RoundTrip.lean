import TapeMachine.Program.Build
import TapeMachine.Program.Write
import TapeMachine.Proofs.Json.Written
import TapeMachine.Proofs.Program.Format

/-!
# Programs that are written and read again

What is written of a program, or of any of its parts, is read as that program or part
(`toText_round_trip`). So to read a text and to write the program again changes the text once at most: a
written text stays as it is.
-/

namespace TapeMachine

open Json

/-! ## Names and numbers -/

def Direction.meaning : Meaning Direction :=
  .oneOf [("Left", .left), ("Right", .right), ("Stay", .stay)]

theorem Direction.follows_reader : Direction.reader.Follows Direction.meaning :=
  Reader.follows_oneOf (by decide)

theorem Direction.represents (d : Direction) : Represents Direction.meaning d d.toJson := by
  apply represents_oneOf
  cases d <;> decide

theorem Mode.represents (m : Mode) : Represents Mode.meaning m m.toJson := by
  apply represents_oneOf
  cases m <;> decide

theorem ActionId.decode_toJson {id : ActionId} (h : id.index < 2 ^ 64) :
    decode ActionId.reader id.toJson = .ok id := by
  have hindex : id.index ≤ significandLimit := Nat.le_of_lt_succ h
  have hspace : skipSpace id.toJson = id.toJson ++ [] := by
    obtain ⟨d, ds, htext, hd⟩ := (digits_toDigits id.index).exists_cons
    rw [List.append_nil, ActionId.toJson, htext]
    exact skipSpace_cons (not_mem_spaces (not_mem_delimiters hd)) ds
  have hread := natural_toDigits hindex hspace (headIn_nil _)
  simp only [decode, ActionId.reader, Reader.map, hread]
  rfl

/-! ## Records -/

theorem DirectionTokens.represents (t : DirectionTokens) :
    Represents DirectionTokens.format.meaning t t.toJson :=
  represents_record <|
    .given (represents_character _) <|
    .given (represents_character _) <|
    .given (represents_character _) <|
    .nil

theorem ActionText.represents (a : ActionText) : Represents ActionText.format.meaning a a.toJson :=
  represents_record <|
    .given (represents_text _) <|
    .given (represents_text _) <|
    .given (represents_text _) <|
    .given (represents_text _) <|
    .given (represents_text _) <|
    .given (represents_text _) <|
    .given (represents_text _) <|
    .nil

namespace Program

/-- A member that is written only if it has a value is the member of a part whose default is to have
none. -/
theorem members_optional {α β : Type} {start x : α} {slots : List (Slot α)}
    {ws : List (String × List Char)} {meaning : Meaning β} {write : β → List Char}
    (hwrite : ∀ b, Represents meaning b (write b)) (hnull : ∀ b, ¬meaning .null b) (name : String)
    {get : α → Option β} (set : Option β → α → α) (hstart : get start = none)
    (h : Members start x slots ws) :
    Members start x (.defaulted name meaning.optional get set :: slots)
      (optionalMember name write (get x) ++ ws) := by
  cases hx : get x with
  | none => exact .omitted rfl (hx.trans hstart.symm) h
  | some b =>
    have hsome : Represents meaning.optional (get x) (write b) := by
      rw [hx]
      exact represents_some hnull (hwrite b)
    exact .given hsome h

theorem represents (p : Program) : Represents format.meaning p p.toJson := by
  unfold toJson
  simp only [List.append_assoc, List.cons_append, List.nil_append]
  exact represents_record <|
    .given (represents_text _) <|
    .given p.mode.represents <|
    .given (represents_text _) <|
    .given (represents_text _) <|
    .given (represents_character _) <|
    .given (represents_character _) <|
    members_optional represents_text (fun _ h => nomatch h) _ _ rfl <|
    members_optional DirectionTokens.represents (fun _ h => h) _ _ rfl <|
    .given (represents_list represents_text _) <|
    .given (represents_list represents_text _) <|
    .given (represents_list ActionText.represents _) <|
    .nil

theorem decode_toJson (p : Program) : decode shape.reader p.toJson = .ok p :=
  p.represents.decode_eq follows_shape.reader

/-- A written program is read as that program: its text, where it is within the size limit, and the texts
of its parts. So the same is built of its text as of itself, or the same fault is reported, in whichever order
the actions are gone through. What is written of a program that was read from any text is read and written
unchanged. -/
theorem toText_round_trip :
    (∀ p : Program, decode shape.reader p.toJson = .ok p ∧
      (p.toText.utf8ByteSize ≤ programSizeLimit →
        ofText p.toText = .ok p ∧ ∀ listing : Listing String Char,
          (ofText p.toText >>= buildThrough listing) = p.buildThrough listing)) ∧
    (∀ a : ActionText, decode ActionText.shape.reader a.toJson = .ok a) ∧
    (∀ t : DirectionTokens, decode DirectionTokens.shape.reader t.toJson = .ok t) ∧
    (∀ m : Mode, decode Mode.reader m.toJson = .ok m) ∧
    (∀ d : Direction, decode Direction.reader d.toJson = .ok d) ∧
    (∀ id : ActionId, id.index < 2 ^ 64 → decode ActionId.reader id.toJson = .ok id) ∧
    ∀ text written : List Char, (decode shape.reader text).map toJson = .ok written →
      (decode shape.reader written).map toJson = .ok written := by
  refine ⟨fun p => ⟨p.decode_toJson, fun hsize => ?_⟩, ?_, ?_, ?_, ?_, ?_, ?_⟩
  · have hread : ofText p.toText = .ok p := by
      obtain ⟨v, hv, hp⟩ := p.represents
      refine (ofText_eq_ok_iff hsize ⟨[], p.toJson, [], blank_nil, hv, blank_nil, ?_⟩ p).mpr hp
      rw [toText, String.toList_ofList, List.nil_append, List.append_nil]
    refine ⟨hread, fun listing => ?_⟩
    rw [hread]
    rfl
  · exact fun a => a.represents.decode_eq ActionText.follows_shape.reader
  · exact fun t => t.represents.decode_eq DirectionTokens.follows_shape.reader
  · exact fun m => m.represents.decode_eq Mode.follows_reader
  · exact fun d => d.represents.decode_eq Direction.follows_reader
  · exact fun id => ActionId.decode_toJson
  · intro text written htext
    cases hread : decode shape.reader text with
    | error e =>
      rw [hread] at htext
      cases htext
    | ok p =>
      rw [hread] at htext
      cases htext
      rw [p.decode_toJson]
      rfl

theorem toText_round_trip_escaped :
    let p : Program :=
      { name := "\"\\/\x01\n😀", initial := "A", noWrite := '"', alphabet := some "",
        directionTokens := some ⟨'<', '>', '\x07'⟩, tapes := ["é", ""], actions := [] }
    p.toText.utf8ByteSize ≤ programSizeLimit ∧ ofText p.toText = .ok p ∧
      decode ActionId.reader (ActionId.toJson ⟨120⟩) = .ok ⟨120⟩ ∧
      (decode shape.reader p.toJson).map toJson = .ok p.toJson := by
  intro p
  obtain ⟨hprogram, -, -, -, -, hid, hwritten⟩ := toText_round_trip
  have hsize : p.toText.utf8ByteSize ≤ programSizeLimit := by decide +kernel
  have hread : (decode shape.reader p.toJson).map toJson = .ok p.toJson := by
    rw [(hprogram p).1]
    rfl
  exact ⟨hsize, ((hprogram p).2 hsize).1, hid ⟨120⟩ (by decide), hwritten _ _ hread⟩

end Program

end TapeMachine
