import Formula.CommandLine
import Formula.Report.OneLine

/-! The program as it is called: with arguments that give a request or ask for its version, and with
a drawer. Options may stand before and after the expression, and `--` makes everything after it an
expression. -/

namespace Formula.CommandLine

/-- What arguments ask for. -/
inductive Invocation where
  | request (r : Request)
  | version

/-- The expression that an invocation is about. -/
def Invocation.expression? : Invocation → Option String
  | request ⟨.eval expression _ _, _⟩ => some expression
  | request ⟨.debug _ expression, _⟩ => some expression
  | version => none

/-- Whether an argument is an option. A dash by itself is none. -/
def isOption (arg : String) : Bool := arg.toList.head? == some '-' && arg != "-"

def runtime? : String → Option Runtime
  | "evaluator" => some .evaluator
  | "vm" => some .vm
  | "both" => some .both
  | _ => none

def stage? : String → Option Stage
  | "tokens" => some .tokens
  | "ast" => some .ast
  | "bytecode" => some .bytecode
  | _ => none

/-- The arguments read so far: whether `--no-color` was given, the expression, the bindings and
the runtime. -/
structure Given where
  noColor : Bool
  expression : Option String
  bindings : List (String × String)
  runtime : Option Runtime

namespace Given

def nothing : Given := ⟨false, none, [], none⟩

/-- `--no-color` may be given once. -/
def addNoColor (g : Given) : Option Given :=
  if g.noColor then none else some { g with noColor := true }

/-- There is one expression. -/
def addExpression (g : Given) (arg : String) : Option Given :=
  if g.expression.isSome then none else some { g with expression := some arg }

/-- There may be any number of bindings. -/
def addBinding (g : Given) (value : String) : Option Given :=
  match Bindings.Argument.parse value with
  | .ok binding => some { g with bindings := g.bindings ++ [binding] }
  | .error _ => none

/-- The runtime may be given once. -/
def addRuntime (g : Given) (value : String) : Option Given :=
  if g.runtime.isSome then none
  else (runtime? value).map fun runtime => { g with runtime := some runtime }

/-- An option with its value. -/
def addOption (g : Given) (name value : String) : Option Given :=
  match name with
  | "--bind" => g.addBinding value
  | "--runtime" => g.addRuntime value
  | _ => none

end Given

/-- An option that is written together with its value, as `--name=value`. -/
def cutOption (arg : String) : Option (String × String) :=
  (Bindings.Argument.cutAtEquals arg.toList).map fun (name, value) =>
    (String.ofList name, String.ofList value)

/-- Reads the arguments after `eval`. -/
def evalArgs (g : Given) : List String → Option Given
  | [] => some g
  | "--" :: rest => rest.foldlM Given.addExpression g
  | "--no-color" :: rest => do evalArgs (← g.addNoColor) rest
  | [arg] => evalArg g arg
  | arg :: value :: rest =>
    if arg = "--bind" ∨ arg = "--runtime" then
      if isOption value then none else do evalArgs (← g.addOption arg value) rest
    else do evalArgs (← evalArg g arg) (value :: rest)
where
  /-- Reads an argument that says everything by itself. -/
  evalArg (g : Given) (arg : String) : Option Given :=
    if isOption arg then do
      let (name, value) ← cutOption arg
      g.addOption name value
    else g.addExpression arg

/-- Reads the arguments after the stage of `debug`. -/
def stageArgs (g : Given) : List String → Option Given
  | [] => some g
  | "--" :: rest => rest.foldlM Given.addExpression g
  | "--no-color" :: rest => do stageArgs (← g.addNoColor) rest
  | arg :: rest => if isOption arg then none else do stageArgs (← g.addExpression arg) rest

/-- Drops one `--no-color` in front of a word. -/
def skipNoColor : List String → List String
  | "--no-color" :: rest => rest
  | args => args

/-- Whether an argument asks for the version. What follows the letter of the short option does not
matter. -/
def isVersion (arg : String) : Bool := arg == "--version" || arg.startsWith "-V"

/-- What arguments ask for. The version is asked for before any other word. -/
def parse (args : List String) : Option Invocation :=
  let words := skipNoColor args
  let noColor := words.length < args.length
  match words with
  | "eval" :: rest => do
    let g ← evalArgs .nothing rest
    let command := .eval (← g.expression) g.bindings (g.runtime.getD .both)
    return .request ⟨command, noColor || g.noColor⟩
  | "debug" :: rest =>
    let words := skipNoColor rest
    let noColor := noColor || words.length < rest.length
    match words with
    | stage :: rest => do
      let stage ← stage? stage
      let g ← stageArgs .nothing rest
      return .request ⟨.debug stage (← g.expression), noColor || g.noColor⟩
    | [] => none
  | arg :: _ => if isVersion arg then some .version else none
  | [] => none

/-- The name of the program and its version. -/
def programVersion : String := "sel 0.1.0"

/-- A run that is not asked for anything the program does. -/
def misuse : Outcome := ⟨2, [], []⟩

/-- What the program does with its arguments and its input. -/
def run (args : List String) (input : Except String String) : Outcome :=
  match parse args with
  | some (.request r) => r.run Report.OneLine.draw input
  | some .version => success [programVersion.toList]
  | none => misuse

end Formula.CommandLine
