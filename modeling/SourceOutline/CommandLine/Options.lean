/-!
# Options

How the arguments of a command line are read. An option has a long name behind two dashes and may
have a short one, a single character, behind one dash. It is a flag, or it takes a value, which is
the next argument, or stands behind the long name and an equals sign, or right behind the short
name. Flags with short names can be put together in one argument.

What begins with a dash is never taken for a value, unless it is a dash alone. An argument that is
neither an option nor a value is the name of a command, and reading ends behind it.
-/

namespace SourceOutline.CommandLine

/-- What an option does. -/
inductive OptionKind where
  | flag
  /-- Takes a value that passes a test, and is given at most once. -/
  | single (valid : String → Bool)
  /-- Takes a value that passes a test, each time it is given. -/
  | repeated (valid : String → Bool)
  /-- Ends the reading, with help. -/
  | help
  /-- Ends the reading, with the version. -/
  | version

/-- An option. -/
structure OptionSpec where
  long : String
  short : Option Char := none
  kind : OptionKind

/-- Why reading ends before the arguments are read. -/
inductive Halt where
  | help
  | version
  /-- The arguments are not possible. -/
  | misuse
  deriving Repr, DecidableEq

/-- The options that were given, by their long names, with their values; a flag has an empty one. -/
abbrev Given := List (String × String)

namespace Given

/-- Whether an option was given. -/
def has (given : Given) (long : String) : Bool :=
  given.any fun option => option.1 == long

/-- The values given to an option. -/
def values (given : Given) (long : String) : List String :=
  (given.filter fun option => option.1 == long).map (·.2)

/-- The value given to an option. -/
def value? (given : Given) (long : String) : Option String :=
  (given.values long).head?

end Given

namespace OptionSpec

/-- Notes that an option was given with a value. -/
def note (option : OptionSpec) (value : String) (given : Given) : Except Halt Given :=
  match option.kind with
  | .help => throw .help
  | .version => throw .version
  | .flag => if given.has option.long then throw .misuse else pure (given ++ [(option.long, "")])
  | .single valid =>
    if given.has option.long || !valid value then throw .misuse
    else pure (given ++ [(option.long, value)])
  | .repeated valid =>
    if valid value then pure (given ++ [(option.long, value)]) else throw .misuse

/-- Whether an option takes a value. -/
def takesValue (option : OptionSpec) : Bool :=
  match option.kind with
  | .single _ | .repeated _ => true
  | _ => false

end OptionSpec

/-- What is known after an argument: the option that still wants its value, and what was given. -/
structure Progress where
  waiting : Option OptionSpec := none
  given : Given := []

/-- Reads a long name, perhaps with a value. -/
def readLong (options : List OptionSpec) (given : Given) (text : List Char) :
    Except Halt Progress := do
  let name := String.ofList (text.takeWhile (· != '='))
  match options.find? (·.long == name) with
  | none => throw .misuse
  | some option =>
    match text.dropWhile (· != '='), option.takesValue with
    | _ :: value, true => pure { given := ← option.note (String.ofList value) given }
    | _ :: _, false => throw .misuse
    | [], true => pure { waiting := some option, given }
    | [], false => pure { given := ← option.note "" given }

/-- Reads short names, of which the last may be followed by a value. -/
def readShort (options : List OptionSpec) (given : Given) : List Char → Except Halt Progress
  | [] => pure { given }
  | c :: rest =>
    match options.find? (·.short == some c) with
    | none => throw .misuse
    | some option =>
      if option.takesValue then
        match rest with
        | [] => pure { waiting := some option, given }
        | '=' :: value => do pure { given := ← option.note (String.ofList value) given }
        | value => do pure { given := ← option.note (String.ofList value) given }
      else do readShort options (← option.note "" given) rest

/-- Reads arguments up to the name of a command, and answers with the options given, that name and
the arguments behind it. Two dashes alone may only stand at the end. -/
def readArguments (options : List OptionSpec) (commands : List String) (progress : Progress) :
    (arguments : List String) → Except Halt (Given × Option (String × List String))
  | [] =>
    match progress.waiting with
    | some _ => throw .misuse
    | none => pure (progress.given, none)
  | argument :: rest =>
    match progress.waiting, argument.toList with
    | none, ['-', '-'] => if rest.isEmpty then pure (progress.given, none) else throw .misuse
    | none, '-' :: '-' :: text => do
      let next ← readLong options progress.given text
      readArguments options commands next rest
    | none, '-' :: c :: text => do
      let next ← readShort options progress.given (c :: text)
      readArguments options commands next rest
    | none, _ =>
      if commands.contains argument then pure (progress.given, some (argument, rest))
      else throw .misuse
    | some _, '-' :: _ :: _ => throw .misuse
    | some option, _ => do
      let given ← option.note argument progress.given
      readArguments options commands { given } rest

end SourceOutline.CommandLine
