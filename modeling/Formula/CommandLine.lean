import Formula.Bindings.Argument
import Formula.Expr.Outline
import Formula.Expr.Text
import Formula.Report

/-! The program: it evaluates an expression by one engine or by both, or shows its tokens, its tree
or its code. How faults in a source are drawn is up to `draw`. -/

namespace Formula.CommandLine

/-- Which engines evaluate an expression. -/
inductive Runtime where
  | evaluator | vm | both
deriving DecidableEq

/-- What is shown of an expression. -/
inductive Stage where
  | tokens | ast | bytecode
deriving DecidableEq

/-- What the program is asked for. -/
inductive Command where
  | eval (expression : String) (bindings : List (String × String)) (runtime : Runtime)
  | debug (stage : Stage) (expression : String)

/-- A command, and whether its reports are without colour. -/
structure Request where
  command : Command
  noColor : Bool

/-- What a run of the program prints, and its exit code. -/
structure Outcome where
  exitCode : Nat
  stdout : List Char
  stderr : List Char
deriving DecidableEq

/-- A run that prints `lines`. -/
def success (lines : List (List Char)) : Outcome := ⟨0, lines.flatMap (· ++ ['\n']), []⟩

/-- A run that prints `text` as its complaint. -/
def failure (text : List Char) : Outcome := ⟨1, [], text⟩

/-! ### The source -/

/-- Whether an expression stands for the program's input. -/
def isInput (expression : String) : Bool := expression == "-"

/-- The source that an expression gives: itself, or the input without the ends of lines at its end,
unless the input cannot be read. -/
def sourceOf (expression : String) (input : Except String String) : Except String String :=
  if isInput expression then
    match input with
    | .ok text => .ok (String.ofList (Text.trimEnd (fun c => c = '\n' || c = '\r') text.toList))
    | .error reason => .error ("<stdin>: " ++ reason)
  else .ok expression

/-- A run that has no source. -/
def unreadable (reason : String) : Outcome := failure (Report.line ("Error: " ++ reason))

section

variable (draw : Report.Drawer) (noColor : Bool)

def report (e : Error) : List Char := Report.text draw ⟨!noColor, none, .unicode⟩ e

/-! ### Evaluation -/

/-- How a value is written that comes from no host. -/
def shown (v : Value) : String := (v.repr Host.none ()).1

def single : Except Error Value → Outcome
  | .ok v => success [(shown v).toList]
  | .error e => failure (report draw noColor e)

/-- The outcome of evaluations by both engines. Values are the same if they are written the
same. -/
def both : Except Error Value → Except Error Value → Outcome
  | .ok v, .ok w =>
    if shown v = shown w then success [(shown v).toList]
    else failure (Report.line "MISMATCH!" ++ Report.line ("  Evaluator: " ++ shown v) ++
      Report.line ("  VM:        " ++ shown w))
  | .error e, .ok w =>
    failure (Report.line "MISMATCH!" ++ Report.line "  Evaluator: error" ++
      report draw noColor e ++ Report.line ("  VM:        " ++ shown w))
  | .ok v, .error e =>
    failure (Report.line "MISMATCH!" ++ Report.line ("  Evaluator: " ++ shown v) ++
      Report.line "  VM:        error" ++ report draw noColor e)
  | .error e, .error e' =>
    if e = e' then failure (report draw noColor e)
    else failure (Report.line "MISMATCH (both errors but different)!" ++
      Report.line "  Evaluator:" ++ report draw noColor e ++ Report.line "  VM:" ++
      report draw noColor e')

/-- The value of an expression by one engine. -/
def evaluate (b : Bindings) (engine : Engine) (e : Expression) : Except Error Value × Expression :=
  (e.evaluate Host.none b.environment engine ()).1

/-- Evaluates a source. What is wrong with the source is reported before any engine is asked. -/
def evalSource (b : Bindings) (source : String) (runtime : Runtime) : Outcome :=
  match (Expression.ofSource Expr.defaultLimit source).tree with
  | (.error e, _) => failure (report draw noColor e)
  | (.ok _, e) =>
    match runtime with
    | .evaluator => single draw noColor (evaluate b .tree e).1
    | .vm => single draw noColor (evaluate b .machine e).1
    | .both =>
      let (v, e) := evaluate b .tree e
      both draw noColor v (evaluate b .machine e).1

/-! ### Stages -/

/-- `text` with spaces in front of it to make up `width` characters. -/
def padStart (width : Nat) (text : List Char) : List Char :=
  List.replicate (width - text.length) ' ' ++ text

/-- `text` with spaces behind it to make up `width` characters. -/
def padEnd (width : Nat) (text : List Char) : List Char :=
  text ++ List.replicate (width - text.length) ' '

/-- A token as a line: where it starts, what it is, and its text. -/
def tokenLine (t : Token) : List Char :=
  padStart 4 (toString t.span.start).toList ++ [' ', ' '] ++ padEnd 6 t.kind.label.toList ++
    ' ' :: t.kind.text

def showTokens (source : String) : Outcome :=
  match Lexer.tokens source.toList with
  | .error fault => failure (report draw noColor (.unreadable (fault.toSyntaxError source)))
  | .ok tokens => success ("=== Tokens ===".toList :: tokens.map tokenLine)

/-- The tree of a source, as an expression and as an outline. -/
def showTree (source : String) : Outcome :=
  match (Expression.ofSource Expr.defaultLimit source).tree.1 with
  | .error e => failure (report draw noColor e)
  | .ok tree => success (["=== Parsed AST ===".toList, tree.text, []] ++ tree.outline.lines)

/-- The code of a source, and the height of the stack that it needs. -/
def showCode (source : String) : Outcome :=
  match (Expression.ofSource Expr.defaultLimit source).code.1 with
  | .error e => failure (report draw noColor e)
  | .ok code =>
    success (["=== Bytecode ===".toList] ++ (code.listing Host.none ()).1.map (·.toList) ++
      [[], ("max stack size: " ++ toString code.maxStack).toList])

def showStage (stage : Stage) (source : String) : Outcome :=
  match stage with
  | .tokens => showTokens draw noColor source
  | .ast => showTree draw noColor source
  | .bytecode => showCode draw noColor source

end

/-- What the program does with a request and its input, which is read before anything else, if at
all. Bindings come before the expression that they are for. -/
def Request.run (draw : Report.Drawer) (input : Except String String) (r : Request) : Outcome :=
  match r.command with
  | .eval expression bindings runtime =>
    match sourceOf expression input with
    | .error reason => unreadable reason
    | .ok source =>
      match Bindings.Argument.build bindings with
      | .error e => failure (report draw r.noColor e)
      | .ok b => evalSource draw r.noColor b source runtime
  | .debug stage expression =>
    match sourceOf expression input with
    | .error reason => unreadable reason
    | .ok source => showStage draw r.noColor stage source

end Formula.CommandLine
