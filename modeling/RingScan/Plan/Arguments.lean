/-!
# Arguments of the command line

The command line names the file of a job and the file of a table, the two bounds of a split and its
replicas.  The name of an option is followed by its value, or by an equals sign and its value.  The
value of a bound is taken whatever it is; any other value that begins with a hyphen must follow an
equals sign, unless it is the hyphen alone.

## Main definitions

* `Plan.Arguments`: what the command line asks for.
* `Plan.Arguments.parse`: the arguments of a command line.
-/

namespace RingScan.Plan

/-- What the command line asks for. -/
structure Arguments where
  /-- The file of the job. -/
  config : String
  /-- The file of the table. -/
  metadata : String
  /-- The text of the token before the split. -/
  start : String
  /-- The text of the last token of the split. -/
  stop : String
  /-- The endpoints that hold the split. -/
  replicas : List String := []
  deriving DecidableEq, Repr

namespace Arguments

/-- Why a command line has no arguments. -/
inductive Refusal where
  /-- It asks for help. -/
  | help
  /-- It cannot be understood. -/
  | misuse
  deriving DecidableEq, Repr

/-- What a value is given for. -/
inductive Slot where
  | config
  | metadata
  | start
  | stop
  | replica
  deriving DecidableEq, Repr

namespace Slot

/-- The slot of an option. -/
def ofName? : String → Option Slot
  | "config" => some config
  | "metadata" => some metadata
  | "start" => some start
  | "end" => some stop
  | "replica" => some replica
  | _ => none

/-- A value is taken whatever it begins with. -/
def takesAnything (slot : Slot) : Bool :=
  slot == start || slot == stop

/-- A value has to have characters. -/
def needsText (slot : Slot) : Bool :=
  slot == config || slot == metadata

end Slot

/-- What has been read of a command line. -/
structure Draft where
  /-- The file of the job. -/
  config : Option String := none
  /-- The file of the table. -/
  metadata : Option String := none
  /-- The text of the token before the split. -/
  start : Option String := none
  /-- The text of the last token of the split. -/
  stop : Option String := none
  /-- The endpoints that hold the split. -/
  replicas : List String := []
  deriving DecidableEq, Repr

namespace Draft

/-- A single value may be given once. -/
def once (before : Option String) (value : String) : Except Refusal (Option String) :=
  match before with
  | none => .ok (some value)
  | some _ => .error .misuse

/-- Takes the value of an option. -/
def set (draft : Draft) (slot : Slot) (value : String) : Except Refusal Draft :=
  if slot.needsText && value.isEmpty then .error .misuse
  else
    match slot with
    | .config => (once draft.config value).map fun config => { draft with config }
    | .metadata => (once draft.metadata value).map fun metadata => { draft with metadata }
    | .start => (once draft.start value).map fun start => { draft with start }
    | .stop => (once draft.stop value).map fun stop => { draft with stop }
    | .replica => .ok { draft with replicas := draft.replicas ++ [value] }

/-- The arguments that have been read, if none is missing. -/
def finish (draft : Draft) : Except Refusal Arguments :=
  match draft with
  | ⟨some config, some metadata, some start, some stop, replicas⟩ =>
    .ok { config, metadata, start, stop, replicas }
  | _ => .error .misuse

end Draft

/-- A text begins with a hyphen and has more characters. -/
def looksLikeOption : List Char → Bool
  | '-' :: _ :: _ => true
  | _ => false

/-- The name of an option and the value after an equals sign, if there is one. -/
def splitName (cs : List Char) : String × Option String :=
  match cs.dropWhile (· != '=') with
  | _ :: value => (String.ofList (cs.takeWhile (· != '=')), some (String.ofList value))
  | [] => (String.ofList cs, none)

/-- What a word of the command line says. -/
inductive Word where
  /-- Nothing may follow. -/
  | finished
  /-- An option, with its value or before it. -/
  | option (slot : Slot) (value : Option String)
  /-- The command line is refused. -/
  | refused (refusal : Refusal)
  deriving DecidableEq, Repr

/-- What the characters of a word say. -/
def Word.ofChars : List Char → Word
  | ['-', '-'] => .finished
  | '-' :: '-' :: cs =>
    match splitName cs with
    | ("help", none) => .refused .help
    | (name, value) =>
      match Slot.ofName? name with
      | some slot => .option slot value
      | none => .refused .misuse
  | '-' :: 'h' :: _ => .refused .help
  | _ => .refused .misuse

/-- Reads a command line after what has been read already; `slot` waits for its value. -/
def parseFrom (draft : Draft) : Option Slot → List String → Except Refusal Arguments
  | none, [] => draft.finish
  | some _, [] => .error .misuse
  | some slot, word :: words =>
    if slot.takesAnything || !looksLikeOption word.toList then
      match draft.set slot word with
      | .ok draft => parseFrom draft none words
      | .error refusal => .error refusal
    else .error .misuse
  | none, word :: words =>
    match Word.ofChars word.toList with
    | .finished => if words.isEmpty then draft.finish else .error .misuse
    | .option slot none => parseFrom draft (some slot) words
    | .option slot (some value) =>
      match draft.set slot value with
      | .ok draft => parseFrom draft none words
      | .error refusal => .error refusal
    | .refused refusal => .error refusal

/-- The arguments of a command line. -/
def parse (words : List String) : Except Refusal Arguments :=
  parseFrom {} none words

end Arguments

end RingScan.Plan
