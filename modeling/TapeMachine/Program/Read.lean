import TapeMachine.Json.Record
import TapeMachine.Program.Basic

/-!
# Reading programs

The shapes of the JSON values that a program is made of, and the programs that texts describe. A
text may not be larger than the size limit.
-/

namespace TapeMachine

open Json

/-- A direction by its name. -/
def Direction.reader : Reader Direction :=
  .oneOf ([.left, .right, .stay].map fun d => (d.name, d))

/-- A mode by its name. -/
def Mode.reader : Reader Mode :=
  .oneOf ([.consume, .atomic].map fun m => (m.name, m))

/-- An action's number. -/
def ActionId.reader : Reader ActionId :=
  Reader.natural.map ActionId.mk

/-- The tokens, all of which must be given. -/
def DirectionTokens.shape : RecordShape DirectionTokens where
  title := "DirectionTokens"
  fields := [
    .mandatory "left" .character fun v t => { t with left := v },
    .mandatory "right" .character fun v t => { t with right := v },
    .mandatory "stay" .character fun v t => { t with stay := v }]
  start := .canonical

/-- An action's text; only the two parts for stacks may be left out. -/
def ActionText.shape : RecordShape ActionText where
  title := "ActionSpec"
  fields := [
    .mandatory "state" .text fun v a => { a with state := v },
    .mandatory "read" .text fun v a => { a with read := v },
    .defaulted "pop" .text fun v a => { a with pop := v },
    .mandatory "write" .text fun v a => { a with write := v },
    .defaulted "push" .text fun v a => { a with push := v },
    .mandatory "directions" .text fun v a => { a with directions := v },
    .mandatory "next_state" .text fun v a => { a with next := v }]
  start := { state := "", read := "", write := "", directions := "", next := "" }

namespace Program

/-- A program; its initial state, tapes and actions must be given. -/
def shape : RecordShape Program where
  title := "Program"
  fields := [
    .defaulted "name" .text fun v p => { p with name := v },
    .defaulted "mode" Mode.reader fun v p => { p with mode := v },
    .mandatory "initial_state" .text fun v p => { p with initial := v },
    .defaulted "halt_state" .text fun v p => { p with halt := v },
    .defaulted "blank" .character fun v p => { p with blank := v },
    .defaulted "nowrite" .character fun v p => { p with noWrite := v },
    .defaulted "alphabet" (.optional .text) fun v p => { p with alphabet := v },
    .defaulted "direction_tokens" (.optional DirectionTokens.shape.reader)
      fun v p => { p with directionTokens := v },
    .mandatory "tapes" (.list .text) fun v p => { p with tapes := v },
    .defaulted "stacks" (.list .text) fun v p => { p with pushdowns := v },
    .mandatory "actions" (.list ActionText.shape.reader) fun v p => { p with actions := v }]
  start := { initial := "", tapes := [], actions := [] }

/-- Refuses a size beyond the limit. -/
def checkSize (bytes : Nat) : Except Fault Unit :=
  if programSizeLimit < bytes then .error (.invalidProgram (.tooLarge bytes)) else .ok ()

theorem checkSize_of_le {bytes : Nat} (h : bytes ≤ programSizeLimit) : checkSize bytes = .ok () :=
  if_neg (Nat.not_lt.mpr h)

theorem checkSize_of_lt {bytes : Nat} (h : programSizeLimit < bytes) :
    checkSize bytes = .error (.invalidProgram (.tooLarge bytes)) :=
  if_pos h

/-- The program that a JSON text describes. -/
def ofText (text : String) : Except Fault Program := do
  checkSize text.utf8ByteSize
  match decode shape.reader text.toList with
  | .ok p => return p
  | .error e => throw (.malformedProgram e)

end Program

end TapeMachine
