/-
The command line of the inspection tool.

A request names what to do with a file, a summary or a listing, and the format
of the answer. The format may be given before or after the word for the action;
the later place counts, and every format but one is text. The answer consists
of what goes to the two output streams and an exit code. The tool reads
compressed files with the codec of stored blocks.
-/

import CycleTrace.Inspection.Listing
import CycleTrace.Inspection.Summary
import CycleTrace.Lz4.StoredBlocks

namespace CycleTrace
namespace Inspection

/-! ### Answers -/

/-- What a run of the tool gives. -/
structure Answer where
  output : String := ""
  errors : String := ""
  exitCode : UInt32 := 0
deriving DecidableEq, Repr

/-- Lines with their line feeds. -/
def linesText (lines : List String) : String :=
  String.join (lines.map (· ++ "\n"))

/-- The output of a summary. -/
def summarize [Lz4.Codec] (json : Bool) (file? : Option StoredFile) : Except Fault String := do
  let summary ← Summary.ofFile file?
  return linesText (if json then [summary.toJson.indented] else summary.lines)

/-- The output of a listing. -/
def list [Lz4.Codec] (json : Bool) (limit : Option Nat) (file? : Option StoredFile) :
    Except Fault String := do
  let listing ← Listing.ofFile file? limit
  return linesText (if json then [listing.toJson.indented] else listing.lines)

/-- The answer for an output or a fault. -/
def Answer.ofResult : Except Fault String → Answer
  | .ok output => { output }
  | .error fault =>
      { errors := "Error: " ++ fault.message ++ "\n", exitCode := fault.exitCode }

/-! ### Requests -/

/-- What to do with a file. -/
inductive Action where
  | summary
  | listing (limit : Option Nat)
deriving DecidableEq, Repr

/-- What to do, the file it is about and the format of the answer. -/
structure Request where
  action : Action
  fileName : String
  json : Bool
deriving DecidableEq, Repr

/-- A part of the command line: an option with its value, or a word. -/
inductive Token where
  | option (name value : String)
  | word (text : String)
deriving DecidableEq, Repr

/-- The options and words given in one place of the command line. -/
structure Arguments where
  format : Option String := none
  limit : Option Nat := none
  words : List String := []
deriving DecidableEq, Repr

/-- A number of 64 bits as an argument. -/
def readLimit? (text : String) : Option Nat :=
  let digits :=
    match text.toList with
    | '+' :: digits => digits
    | digits => digits
  if digits.isEmpty || !digits.all Char.isDigit then none
  else
    let value := digits.foldl (fun value digit => 10 * value + (digit.toNat - '0'.toNat)) 0
    if value < UInt64.size then some value else none

/-- Splits an argument that gives an option its value in one word. -/
def splitOption (argument : String) : String × Option String :=
  match argument.splitOn "=" with
  | name :: value :: rest => (name, some (String.intercalate "=" (value :: rest)))
  | _ => (argument, none)

/-- Whether an argument looks like an option. -/
def isOption (argument : String) : Bool :=
  argument.toList.head? == some '-' && argument ≠ "-"

/-- The parts of a command line. After two dashes everything is a word. -/
def tokens? : List String → Option (List Token)
  | [] => some []
  | "--" :: rest => some (rest.map .word)
  | argument :: rest =>
      if isOption argument then
        match splitOption argument, rest with
        | (name, some value), rest => (tokens? rest).map (.option name value :: ·)
        | (name, none), value :: rest =>
            if isOption value then none else (tokens? rest).map (.option name value :: ·)
        | (_, none), [] => none
      else (tokens? rest).map (.word argument :: ·)

/-- Whether a part is an option. -/
def Token.isOption : Token → Bool
  | option .. => true
  | word _ => false

/-- Adds one part; each option may be given once. -/
def Arguments.add (arguments : Arguments) : Token → Option Arguments
  | .word text => some { arguments with words := arguments.words ++ [text] }
  | .option "--format" value =>
      if arguments.format.isSome then none else some { arguments with format := some value }
  | .option "--limit" value =>
      match arguments.limit, readLimit? value with
      | none, some limit => some { arguments with limit := some limit }
      | _, _ => none
  | .option .. => none

/-- Collects the parts given in one place. -/
def Arguments.ofTokens? (tokens : List Token) : Option Arguments :=
  tokens.foldlM Arguments.add {}

/-- The request that arguments make, if they make one. -/
def Request.ofArguments? (arguments : List String) : Option Request := do
  let tokens ← tokens? arguments
  let opening ← Arguments.ofTokens? (tokens.takeWhile Token.isOption)
  let .word verb :: rest := tokens.dropWhile Token.isOption | none
  let ending ← Arguments.ofTokens? rest
  if opening.limit.isSome then none
  let [fileName] := ending.words | none
  if fileName = "" then none
  let format := (ending.format <|> opening.format).getD "text"
  let json := format = "json"
  match verb with
  | "info" => if ending.limit.isSome then none else some { action := .summary, fileName, json }
  | "dump" => some { action := .listing ending.limit, fileName, json }
  | _ => none

/-- Answers a request about a file that may not exist. Frames hold stored blocks. -/
def Request.answer (request : Request) (file? : Option StoredFile) : Answer :=
  .ofResult <|
    match request.action with
    | .summary => summarize request.json file?
    | .listing limit => list request.json limit file?

end Inspection
end CycleTrace
