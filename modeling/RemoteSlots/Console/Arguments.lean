/-!
This module contains the arguments of the collector program and the way they are read.

Arguments are read from left to right. An option takes its value from the same argument, behind `=`
or, for a one letter option, directly, or else from the next argument, unless that looks like an
option itself. Such a value is only looked at when the next option or the end is reached, so that an
argument that is not known at all is reported first.
-/

namespace RemoteSlots

namespace Console

structure Arguments where
  keyValueSlots : Nat := 256
  keyValuePort : Nat := 1337
  postcardSlots : Nat := 256
  postcardPort : Nat := 1336
  lists : Nat := 4
  listPortStart : Nat := 1338
  listSlots : Nat := 256
  standardPages : Bool := false
  eventTimeoutSeconds : Option Nat := none
  redundancy : Nat := 4
  synthetic : Bool := false
  syntheticEntries : Nat := 64
  printLimit : Nat := 32
  deriving DecidableEq, Repr

inductive Usage where
  | unknownArgument
  | invalidValue
  | valueValidation
  | argumentConflict
  | tooManyValues
  | displayHelp
  | displayVersion
  deriving DecidableEq, Repr

def Usage.name : Usage → String
  | unknownArgument => "UnknownArgument"
  | invalidValue => "InvalidValue"
  | valueValidation => "ValueValidation"
  | argumentConflict => "ArgumentConflict"
  | tooManyValues => "TooManyValues"
  | displayHelp => "DisplayHelp"
  | displayVersion => "DisplayVersion"

/--
An option with a number. The number is below `2 ^ bits`; options of up to 32 bits also read a zero
with a minus sign.
-/
structure NumberOption where
  long : String
  short : Option Char
  bits : Nat
  set : Arguments → Nat → Arguments

structure Switch where
  long : String
  set : Arguments → Arguments

def numberOptions : List NumberOption := [
  ⟨"keyvalue-slots", none, 64, fun a n => { a with keyValueSlots := n }⟩,
  ⟨"keyvalue-port", none, 16, fun a n => { a with keyValuePort := n }⟩,
  ⟨"postcard-slots", none, 64, fun a n => { a with postcardSlots := n }⟩,
  ⟨"postcard-port", none, 16, fun a n => { a with postcardPort := n }⟩,
  ⟨"lists", some 'l', 16, fun a n => { a with lists := n }⟩,
  ⟨"list-port-start", none, 16, fun a n => { a with listPortStart := n }⟩,
  ⟨"list-slots", none, 64, fun a n => { a with listSlots := n }⟩,
  ⟨"event-timeout-secs", none, 64, fun a n => { a with eventTimeoutSeconds := some n }⟩,
  ⟨"redundancy", some 'r', 8, fun a n => { a with redundancy := n }⟩,
  ⟨"synthetic-entries", none, 32, fun a n => { a with syntheticEntries := n }⟩,
  ⟨"print-limit", none, 64, fun a n => { a with printLimit := n }⟩]

def switches : List Switch := [
  ⟨"standard-pages", fun a => { a with standardPages := true }⟩,
  ⟨"synthetic", fun a => { a with synthetic := true }⟩]

def digits? (text : List Char) : Option Nat :=
  if text.isEmpty then none
  else
    text.foldlM (fun n c => if c.isDigit then some (10 * n + (c.toNat - '0'.toNat)) else none) 0

def NumberOption.read? (option : NumberOption) (text : List Char) : Option Nat := do
  let n ←
    match text with
    | '+' :: rest => digits? rest
    | '-' :: rest => do
      let n ← digits? rest
      if option.bits ≤ 32 ∧ n = 0 then return 0 else none
    | text => digits? text
  if n < 1 <<< option.bits then some n else none

structure Reading where
  arguments : Arguments := {}
  given : List String := []
  pending : Option (NumberOption × Option (List Char)) := none

namespace Reading

def setNumber (reading : Reading) (option : NumberOption) (text : List Char) :
    Except Usage Reading :=
  if reading.given.contains option.long then
    .error .argumentConflict
  else
    match option.read? text with
    | none => .error .valueValidation
    | some n =>
      .ok { reading with
        arguments := option.set reading.arguments n
        given := option.long :: reading.given }

def settle (reading : Reading) : Except Usage Reading :=
  match reading.pending with
  | none => .ok reading
  | some (_, none) => .error .invalidValue
  | some (option, some text) => { reading with pending := none }.setNumber option text

def startNumber (reading : Reading) (option : NumberOption) (attached : Option (List Char)) :
    Except Usage Reading := do
  let reading ← reading.settle
  match attached with
  | some text => reading.setNumber option text
  | none => return { reading with pending := some (option, none) }

def readLong (reading : Reading) (text : List Char) : Except Usage Reading :=
  let name := String.ofList (text.takeWhile (· ≠ '='))
  let attached :=
    match text.dropWhile (· ≠ '=') with
    | [] => none
    | _ :: value => some value
  match numberOptions.find? (·.long = name), switches.find? (·.long = name) with
  | some option, _ => reading.startNumber option attached
  | none, some switch =>
    if attached.isSome then
      .error .tooManyValues
    else do
      let reading ← reading.settle
      if reading.given.contains switch.long then
        throw .argumentConflict
      return { reading with
        arguments := switch.set reading.arguments
        given := switch.long :: reading.given }
  | none, none =>
    if name = "help" ∨ name = "version" then
      if attached.isSome then
        .error .tooManyValues
      else do
        let _ ← reading.settle
        throw (if name = "help" then .displayHelp else .displayVersion)
    else
      .error .unknownArgument

def readShort (reading : Reading) (letter : Char) (rest : List Char) : Except Usage Reading :=
  match numberOptions.find? (·.short = some letter) with
  | some option =>
    reading.startNumber option <|
      match rest with
      | [] => none
      | '=' :: value => some value
      | value => some value
  | none =>
    if letter = 'h' ∨ letter = 'V' then do
      let _ ← reading.settle
      throw (if letter = 'h' then .displayHelp else .displayVersion)
    else
      .error .unknownArgument

def readPlain (reading : Reading) (text : List Char) : Except Usage Reading :=
  match reading.pending with
  | some (option, none) => .ok { reading with pending := some (option, some text) }
  | _ => .error .unknownArgument

def readAll (reading : Reading) : List String → Except Usage Reading
  | [] => reading.settle
  | argument :: rest =>
    match argument.toList with
    | ['-', '-'] => if rest.isEmpty then reading.settle else .error .unknownArgument
    | '-' :: '-' :: text => do (← reading.readLong text).readAll rest
    | '-' :: letter :: text => do (← reading.readShort letter text).readAll rest
    | text => do (← reading.readPlain text).readAll rest

end Reading

def Arguments.parse (arguments : List String) : Except Usage Arguments := do
  let reading ← Reading.readAll {} arguments
  return reading.arguments

example : (Arguments.parse ["-l", "2", "--synthetic"]).toOption =
    some { lists := 2, synthetic := true } := by
  decide +kernel

end Console

end RemoteSlots
