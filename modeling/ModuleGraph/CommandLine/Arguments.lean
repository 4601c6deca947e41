import ModuleGraph.CommandLine.Command
import ModuleGraph.Text.Split

/-!
# Reading arguments

Arguments are read from left to right, and the first one that asks for something else than a
command, or is at fault, decides. No option is given twice. After two hyphens alone every
argument is a path.
-/

namespace ModuleGraph.CommandLine

/-- The form of an argument. -/
inductive Argument
  /-- Two hyphens alone. -/
  | separator
  /-- A value, or the name of a command. -/
  | plain (text : String)
  /-- The name of an option after two hyphens, and the value after an equals sign. -/
  | long (name : String) (value : Option String)
  /-- The letters of options after one hyphen. -/
  | short (letters : List Char)
deriving DecidableEq, Inhabited, Repr

namespace Argument

/-- The form of a text. A single hyphen is a value. -/
def ofText (s : String) : Argument :=
  match s.toList with
  | ['-', '-'] => .separator
  | '-' :: '-' :: rest =>
    match Text.cutFirst '=' (String.ofList rest) with
    | some (name, value) => .long name (some value)
    | none => .long (String.ofList rest) none
  | '-' :: c :: rest => .short (c :: rest)
  | _ => .plain s

/-- The text can be the value of an option. -/
def isValue (s : String) : Bool :=
  match ofText s with
  | .plain _ => true
  | _ => false

end Argument

/-- What the arguments of a command have given so far. -/
structure Given where
  verbose : Bool
  path : Option Path
  emitted : Option String
  runtimeOnly : Bool
  format : Option Report.Format
deriving DecidableEq, Inhabited, Repr

namespace Given

/-- Nothing is given. -/
def nothing : Given := ⟨false, none, none, false, none⟩

/-- One argument more: what is given with it, or what the arguments ask for if it decides. -/
abbrev Step := Except Invocation Given

/-- The path of a command, which is not empty and given once. -/
def place (g : Given) (text : String) : Step :=
  if text = "" || g.path.isSome then .error .misuse else .ok { g with path := some ⟨text⟩ }

/-- A switch that every command has, by its letter. -/
def letter (verb : Option Verb) (g : Given) (c : Char) : Step :=
  match c with
  | 'v' => if g.verbose then .error .misuse else .ok { g with verbose := true }
  | 'V' => .error (.version verb)
  | 'h' => .error .help
  | _ => .error .misuse

/-- A switch by its name. -/
def switch (verb : Option Verb) (g : Given) (name : String) : Step :=
  match name with
  | "verbose" => g.letter verb 'v'
  | "version" => g.letter verb 'V'
  | "help" => g.letter verb 'h'
  | "runtime-only" =>
    if verb = some .edges && !g.runtimeOnly then .ok { g with runtimeOnly := true }
    else .error .misuse
  | _ => .error .misuse

/-- The option of that name has a value in the command. -/
def takesValue (verb : Verb) (name : String) : Bool :=
  match name with
  | "format" => verb != .inspect
  | "emit-ext" => verb == .edges
  | _ => false

/-- An option with its value. -/
def option (g : Given) (name value : String) : Step :=
  match name with
  | "format" =>
    match g.format, Report.Format.ofName? value with
    | none, some format => .ok { g with format := some format }
    | _, _ => .error .misuse
  | "emit-ext" =>
    if g.emitted.isSome then .error .misuse else .ok { g with emitted := some value }
  | _ => .error .misuse

/-- The command that is asked for once all arguments are read; every command needs a path. -/
def finish (verb : Verb) (g : Given) : Invocation :=
  match g.path with
  | none => .misuse
  | some path =>
    let format := g.format.getD .compact
    .run <|
      match verb with
      | .edges => .edges path ⟨g.emitted, g.runtimeOnly⟩ format
      | .inspect => .inspect path
      | .circular => .circular path format
      | .stats => .stats path format

/-- What the arguments after two hyphens ask for. -/
def readPaths (verb : Verb) (g : Given) : List String → Invocation
  | [] => g.finish verb
  | s :: rest =>
    match g.place s with
    | .error asked => asked
    | .ok g => readPaths verb g rest

/-- What the arguments of a command ask for. -/
def read (verb : Verb) (g : Given) : List String → Invocation
  | [] => g.finish verb
  | s :: rest =>
    match Argument.ofText s with
    | .separator => g.readPaths verb rest
    | .plain text =>
      match g.place text with
      | .error asked => asked
      | .ok g => read verb g rest
    | .short letters =>
      match letters.foldlM (letter (some verb)) g with
      | .error asked => asked
      | .ok g => read verb g rest
    | .long name (some value) =>
      if takesValue verb name then
        match g.option name value with
        | .error asked => asked
        | .ok g => read verb g rest
      else .misuse
    | .long name none =>
      if takesValue verb name then
        match rest with
        | [] => .misuse
        | value :: more =>
          if Argument.isValue value then
            match g.option name value with
            | .error asked => asked
            | .ok g => read verb g more
          else .misuse
      else
        match g.switch (some verb) name with
        | .error asked => asked
        | .ok g => read verb g rest

end Given

/-- What the arguments after the word for help ask for: one command to be explained, or all. -/
def readTopic : List String → Invocation
  | [] => .help
  | [topic] => if topic = "help" || (Verb.ofName? topic).isSome then .help else .misuse
  | _ => .misuse

/-- What the arguments of the program ask for; `g` is what stands before a command. -/
def readFrom (g : Given) : List String → Invocation
  | [] => .misuse
  | s :: rest =>
    match Argument.ofText s with
    | .plain name =>
      if name = "help" then readTopic rest
      else
        match Verb.ofName? name with
        | none => .misuse
        | some verb => Given.nothing.read verb rest
    | .short letters =>
      match letters.foldlM (Given.letter none) g with
      | .error asked => asked
      | .ok g => readFrom g rest
    | .long name none =>
      match g.switch none name with
      | .error asked => asked
      | .ok g => readFrom g rest
    | _ => .misuse

/-- What the arguments of the program ask for. -/
def Invocation.ofArguments (arguments : List String) : Invocation :=
  readFrom .nothing arguments

end ModuleGraph.CommandLine
