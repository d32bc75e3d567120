import TapeMachine.Program.Read
import TapeMachine.Proofs.Json.Records
import TapeMachine.Proofs.Json.Written

/-!
# Which JSON objects are programs

The formats of programs and their parts, and that exactly the programs that an object describes are read
from its text: in whatever order its members come, whatever other members are between them and however they
are spelled (`ofText_object`).
-/

namespace TapeMachine

open Json

/-! ## Formats -/

def Mode.meaning : Meaning Mode :=
  .oneOf [("consume", .consume), ("atomic", .atomic)]

def DirectionTokens.format : Format DirectionTokens where
  slots := [
    .mandatory "left" .character DirectionTokens.left fun v t => { t with left := v },
    .mandatory "right" .character DirectionTokens.right fun v t => { t with right := v },
    .mandatory "stay" .character DirectionTokens.stay fun v t => { t with stay := v }]
  start := .canonical
  nodup := by decide
  get_set := by simp [Slot.mandatory]
  get_set_of_ne := by simp [Slot.mandatory]
  ext := by
    rintro ⟨⟩ ⟨⟩ h
    simpa [Slot.mandatory] using h

def ActionText.format : Format ActionText where
  slots := [
    .mandatory "state" .text ActionText.state fun v a => { a with state := v },
    .mandatory "read" .text ActionText.read fun v a => { a with read := v },
    .defaulted "pop" .text ActionText.pop fun v a => { a with pop := v },
    .mandatory "write" .text ActionText.write fun v a => { a with write := v },
    .defaulted "push" .text ActionText.push fun v a => { a with push := v },
    .mandatory "directions" .text ActionText.directions fun v a => { a with directions := v },
    .mandatory "next_state" .text ActionText.next fun v a => { a with next := v }]
  start := { state := "", read := "", write := "", directions := "", next := "" }
  nodup := by decide
  get_set := by simp [Slot.mandatory, Slot.defaulted]
  get_set_of_ne := by simp [Slot.mandatory, Slot.defaulted]
  ext := by
    rintro ⟨⟩ ⟨⟩ h
    simpa [Slot.mandatory, Slot.defaulted] using h

namespace Program

def format : Format Program where
  slots := [
    .defaulted "name" .text Program.name fun v p => { p with name := v },
    .defaulted "mode" Mode.meaning Program.mode fun v p => { p with mode := v },
    .mandatory "initial_state" .text Program.initial fun v p => { p with initial := v },
    .defaulted "halt_state" .text Program.halt fun v p => { p with halt := v },
    .defaulted "blank" .character Program.blank fun v p => { p with blank := v },
    .defaulted "nowrite" .character Program.noWrite fun v p => { p with noWrite := v },
    .defaulted "alphabet" (.optional .text) Program.alphabet fun v p => { p with alphabet := v },
    .defaulted "direction_tokens" (.optional DirectionTokens.format.meaning) Program.directionTokens
      fun v p => { p with directionTokens := v },
    .mandatory "tapes" (.list .text) Program.tapes fun v p => { p with tapes := v },
    .defaulted "stacks" (.list .text) Program.pushdowns fun v p => { p with pushdowns := v },
    .mandatory "actions" (.list ActionText.format.meaning) Program.actions
      fun v p => { p with actions := v }]
  start := { initial := "", tapes := [], actions := [] }
  nodup := by decide
  get_set := by simp [Slot.mandatory, Slot.defaulted]
  get_set_of_ne := by simp [Slot.mandatory, Slot.defaulted]
  ext := by
    rintro ⟨⟩ ⟨⟩ h
    simpa [Slot.mandatory, Slot.defaulted] using h

end Program

/-! ## The readers follow the formats -/

theorem Mode.follows_reader : Mode.reader.Follows Mode.meaning :=
  Reader.follows_oneOf (by decide)

theorem DirectionTokens.follows_shape : DirectionTokens.shape.Follows DirectionTokens.format where
  fields :=
    .cons (Field.matches_of_follows Reader.follows_character _ _ _ _) <|
    .cons (Field.matches_of_follows Reader.follows_character _ _ _ _) <|
    .cons (Field.matches_of_follows Reader.follows_character _ _ _ _) <|
    .nil
  start := rfl

theorem ActionText.follows_shape : ActionText.shape.Follows ActionText.format where
  fields :=
    .cons (Field.matches_of_follows Reader.follows_text _ _ _ _) <|
    .cons (Field.matches_of_follows Reader.follows_text _ _ _ _) <|
    .cons (Field.matches_of_follows Reader.follows_text _ _ _ _) <|
    .cons (Field.matches_of_follows Reader.follows_text _ _ _ _) <|
    .cons (Field.matches_of_follows Reader.follows_text _ _ _ _) <|
    .cons (Field.matches_of_follows Reader.follows_text _ _ _ _) <|
    .cons (Field.matches_of_follows Reader.follows_text _ _ _ _) <|
    .nil
  start := rfl

namespace Program

theorem follows_shape : shape.Follows format where
  fields :=
    .cons (Field.matches_of_follows Reader.follows_text _ _ _ _) <|
    .cons (Field.matches_of_follows Mode.follows_reader _ _ _ _) <|
    .cons (Field.matches_of_follows Reader.follows_text _ _ _ _) <|
    .cons (Field.matches_of_follows Reader.follows_text _ _ _ _) <|
    .cons (Field.matches_of_follows Reader.follows_character _ _ _ _) <|
    .cons (Field.matches_of_follows Reader.follows_character _ _ _ _) <|
    .cons (Field.matches_of_follows Reader.follows_text.optional _ _ _ _) <|
    .cons (Field.matches_of_follows DirectionTokens.follows_shape.reader.optional _ _ _ _) <|
    .cons (Field.matches_of_follows Reader.follows_text.list _ _ _ _) <|
    .cons (Field.matches_of_follows Reader.follows_text.list _ _ _ _) <|
    .cons (Field.matches_of_follows ActionText.follows_shape.reader.list _ _ _ _) <|
    .nil
  start := rfl

/-! ## Programs from texts -/

/-- Within the size limit a text gives the program that its value stands for. -/
theorem ofText_eq_ok_iff {text : String} {v : Value} (hsize : text.utf8ByteSize ≤ programSizeLimit)
    (htext : Document v text.toList) (p : Program) : ofText text = .ok p ↔ format.meaning v p := by
  rw [← decode_eq_ok_iff follows_shape.reader htext, ofText, checkSize_of_le hsize]
  cases decode shape.reader text.toList with
  | ok q =>
    show Except.ok q = Except.ok p ↔ Except.ok q = Except.ok p
    rw [Except.ok.injEq, Except.ok.injEq]
  | error e =>
    constructor
    · intro h
      cases h
    · intro h
      cases h

/-- The text of an object is accepted if no slot's name occurs twice among its keys, the required members
are there, and each member that has a slot has a value with a meaning there; it then gives exactly the
program that the members describe. -/
theorem ofText_object {text : String} {ms : List (String × Value)}
    (hsize : text.utf8ByteSize ≤ programSizeLimit) (htext : Document (.object ms) text.toList) :
    ((∃ p, ofText text = .ok p) ↔ format.Describable ms) ∧
      ∀ p, ofText text = .ok p ↔ format.Describes ms p := by
  have hmeaning : ∀ p, ofText text = .ok p ↔ format.Describes ms p := ofText_eq_ok_iff hsize htext
  exact ⟨(exists_congr hmeaning).trans Format.exists_describes_iff, hmeaning⟩

/-- An object with as few members as possible, one of them in the way, and white space and an escape. -/
theorem ofText_object_sparse :
    let text := "\x7b \"tapes\":[],\"no\\u0074e\":-1.5e+3,\n\"initial_state\":\"A\",\"actions\":[ ]\x7d"
    let ms : List (String × Value) := [("tapes", .list []), ("note", .number "-1.5e+3".toList),
      ("initial_state", .text "A"), ("actions", .list [])]
    let p : Program := { initial := "A", tapes := [], actions := [] }
    text.utf8ByteSize ≤ programSizeLimit ∧ Document (.object ms) text.toList ∧
      format.Describes ms p ∧ ofText text = .ok p ∧ format.Describable ms := by
  intro text ms p
  have hsize : text.utf8ByteSize ≤ programSizeLimit := by decide +kernel
  have hspace : Blank [' '] := by simp [Blank, spaces]
  have hline : Blank ['\n'] := by simp [Blank, spaces]
  have hnote : SpellsString "note" "\"no\\u0074e\"".toList :=
    ⟨"no\\u0074e".toList,
      .cons (.itself (by decide) (by decide) (by decide)) <|
      .cons (.itself (by decide) (by decide) (by decide)) <|
      .cons (.unit ⟨'0', '0', '7', '4', ⟨by decide, .inl rfl⟩, ⟨by decide, .inl rfl⟩,
        ⟨by decide, .inl rfl⟩, ⟨by decide, .inl rfl⟩, rfl⟩) <|
      .cons (.itself (by decide) (by decide) (by decide)) .nil, rfl⟩
  have hnumber : Spells (.number "-1.5e+3".toList) "-1.5e+3".toList :=
    .negative ⟨['1'], ['.', '5'], ['e', '+', '3'], .inr ⟨by simp [Digits], by decide⟩,
      .inr ⟨['5'], by simp [Digits], rfl⟩,
      .inr ⟨'e', ['+'], ['3'], by decide, by decide, by simp [Digits], rfl⟩, rfl⟩
  have htext : Document (.object ms) text.toList :=
    ⟨[], _, [], blank_nil, .object (
      .cons (.mk hspace (spellsString_writeString "tapes") blank_nil blank_nil
        (.emptyList blank_nil) blank_nil) <|
      .cons (.mk blank_nil hnote blank_nil blank_nil hnumber blank_nil) <|
      .cons (.mk hline (spellsString_writeString "initial_state") blank_nil blank_nil
        (spells_writeString "A") blank_nil) <|
      .last (.mk blank_nil (spellsString_writeString "actions") blank_nil blank_nil
        (.emptyList hspace) blank_nil)), blank_nil, by decide +kernel⟩
  have hdescribes : format.Describes ms p := by
    refine ⟨by decide, ?_, ?_, ?_⟩
    · simp [format, Slot.mandatory, Slot.defaulted, keys, ms]
    · simp [format, Slot.mandatory, Slot.defaulted, ms, p, Meaning.text, Meaning.list]
    · simp [format, Slot.mandatory, Slot.defaulted, keys, ms, p]
  obtain ⟨haccepted, hread⟩ := ofText_object hsize htext
  have hp := (hread p).mpr hdescribes
  exact ⟨hsize, htext, hdescribes, hp, haccepted.mp ⟨p, hp⟩⟩

end Program

end TapeMachine
