import SpikeWatch.Text.Utf8

/-!
# Arguments

The arguments of the command line are bytes, since paths need not be text.  Options are written with
their full name behind two hyphens, or with one letter behind one hyphen; letters may share a
hyphen.  The value of an option is the rest of the argument or the next argument.  No option may be
given twice, and nothing but options is wanted.

`Arguments.ofBytes` reads all arguments; the first one that cannot be read, or asks for help,
decides.
-/

set_option autoImplicit false

namespace SpikeWatch.CommandLine

/-- A path of the file system. -/
abbrev Path := List UInt8

/-- An option with a value. -/
inductive ValueOption where
  | config
  | input
  | linger
  deriving DecidableEq

/-- The full name of an option, with its hyphens. -/
def ValueOption.name : ValueOption → String
  | config => "--config"
  | input => "--input"
  | linger => "--linger"

/-- What was asked for. -/
structure Arguments where
  /-- The file with the settings. -/
  config : Option Path := none
  /-- The file with the batches, in the place of the standard input. -/
  input : Option Path := none
  /-- For how many seconds the tasks go on after the last line. -/
  linger : Option UInt64 := none
  /-- Whether to say more about the work. -/
  verbose : Bool := false
  deriving DecidableEq

/-- Why arguments are refused. -/
inductive Misuse where
  /-- An argument that is no option. -/
  | unexpected (argument : List UInt8)
  | withoutValue (option : ValueOption)
  /-- A value was given to an option that takes none. -/
  | withValue (name : String)
  | givenTwice (name : String)
  | badValue (option : ValueOption)
  deriving DecidableEq

/-- What is said about arguments that are refused. -/
def Misuse.message : Misuse → String
  | unexpected argument =>
    "unexpected argument '" ++ Text.showBytes argument ++ "'"
  | withoutValue option => "a value is required for '" ++ option.name ++ "'"
  | withValue name => "no value is wanted for '" ++ name ++ "'"
  | givenTwice name => "'" ++ name ++ "' cannot be used more than once"
  | badValue option => "invalid value for '" ++ option.name ++ "'"

/-- Why the program does not go on to work. -/
inductive Stop where
  | help
  | misuse (m : Misuse)
  deriving DecidableEq

namespace Arguments

/-- The characters as bytes. -/
def ascii (s : String) : List UInt8 := s.toList.map fun c => .ofNat c.toNat

/-- A number of seconds: digits, possibly behind a plus sign, for a number of sixty-four bits. -/
def seconds? (value : List UInt8) : Option UInt64 :=
  let digits := match value with
    | 43 :: rest => rest
    | value => value
  if digits.isEmpty || !digits.all (fun b => 48 ≤ b && b ≤ 57) then none
  else
    let n := digits.foldl (fun n b => 10 * n + (b.toNat - 48)) 0
    if n < UInt64.size then some (.ofNat n) else none

/-- Gives an option its value.  Paths are not empty. -/
def set (a : Arguments) (option : ValueOption) (value : List UInt8) : Except Misuse Arguments :=
  match option with
  | .config =>
    if a.config.isSome then .error (.givenTwice option.name)
    else if value.isEmpty then .error (.badValue option)
    else .ok { a with config := some value }
  | .input =>
    if a.input.isSome then .error (.givenTwice option.name)
    else if value.isEmpty then .error (.badValue option)
    else .ok { a with input := some value }
  | .linger =>
    if a.linger.isSome then .error (.givenTwice option.name)
    else
      match seconds? value with
      | none => .error (.badValue option)
      | some n => .ok { a with linger := some n }

/-- Asks for more to be said.  That can be asked for once. -/
def setVerbose (a : Arguments) : Except Misuse Arguments :=
  if a.verbose then .error (.givenTwice "--verbose") else .ok { a with verbose := true }

/-- The arguments so far, and the option whose value has to follow. -/
abbrev Progress := Arguments × Option ValueOption

/-- Reads an option with its full name, without the hyphens. -/
def readName (a : Arguments) (name : List UInt8) : Except Stop Progress :=
  let flag := name.takeWhile (· != 61)
  let value? : Option (List UInt8) := match name.dropWhile (· != 61) with
    | [] => none
    | _ :: value => some value
  let valued (option : ValueOption) : Except Stop Progress :=
    match value? with
    | none => .ok (a, some option)
    | some value => ((a.set option value).mapError .misuse).map (·, none)
  if flag = ascii "config" then valued .config
  else if flag = ascii "input" then valued .input
  else if flag = ascii "linger" then valued .linger
  else if flag = ascii "verbose" then
    if value?.isSome then .error (.misuse (.withValue "--verbose"))
    else (a.setVerbose.mapError .misuse).map (·, none)
  else if flag = ascii "help" then
    if value?.isSome then .error (.misuse (.withValue "--help")) else .error .help
  else .error (.misuse (.unexpected (ascii "--" ++ name)))

/-- Gives an option the rest of its argument for a value, behind an equality sign or not.  If there
is no rest the value has to follow. -/
def setAttached (a : Arguments) (option : ValueOption) : List UInt8 → Except Stop Progress
  | [] => .ok (a, some option)
  | 61 :: value => ((a.set option value).mapError .misuse).map (·, none)
  | value => ((a.set option value).mapError .misuse).map (·, none)

/-- Reads letters that share a hyphen. -/
def readLetters (a : Arguments) : List UInt8 → Except Stop Progress
  | [] => .ok (a, none)
  | b :: rest =>
    if b = 99 then a.setAttached .config rest
    else if b = 105 then a.setAttached .input rest
    else if b = 118 then
      match a.setVerbose with
      | .error m => .error (.misuse m)
      | .ok a => readLetters a rest
    else if b = 104 then .error .help
    else .error (.misuse (.unexpected (ascii "-" ++ (b :: rest))))

/-- Whether an argument begins like an option.  A hyphen alone does not. -/
def isOption : List UInt8 → Bool
  | 45 :: _ :: _ => true
  | _ => false

/-- Reads one argument. -/
def readOne (a : Arguments) : List UInt8 → Except Stop Progress
  | 45 :: 45 :: name => a.readName name
  | 45 :: b :: letters => a.readLetters (b :: letters)
  | argument => .error (.misuse (.unexpected argument))

/-- Reads arguments behind others.  Two hyphens alone end the options. -/
def readAll (a : Arguments) : List (List UInt8) → Except Stop Arguments
  | [] => .ok a
  | [45, 45] :: rest =>
    match rest with
    | [] => .ok a
    | argument :: _ => .error (.misuse (.unexpected argument))
  | argument :: rest =>
    match a.readOne argument with
    | .error stop => .error stop
    | .ok (a, none) => readAll a rest
    | .ok (a, some option) =>
      match rest with
      | [] => .error (.misuse (.withoutValue option))
      | value :: rest =>
        if isOption value then .error (.misuse (.withoutValue option))
        else
          match a.set option value with
          | .error m => .error (.misuse m)
          | .ok a => readAll a rest

/-- Reads the arguments. -/
def ofBytes (arguments : List (List UInt8)) : Except Stop Arguments := readAll {} arguments

end Arguments

end SpikeWatch.CommandLine
