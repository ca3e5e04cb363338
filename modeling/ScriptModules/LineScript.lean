import ScriptModules.Host
import ScriptModules.Text.Split

/-!
# Line scripts

A small script language with an engine, enough to drive a loader: a module is a
list of lines, and each line is one statement.

* `export name = value`: define a binding; the value is JSON, else a text.
* `import name from spec`: load a module and bind its exports.
* `peek name from spec`: load a module and bind its export `ready`.
* `try name from spec`: load a module and bind null, or the text of the error.
* `require spec`: load a module.
* `throw text`: fail.
* `id name`: bind the id of the module.
* `deps name`: bind the ids of the modules loaded so far.
* `call name = request`: ask the loader for something and bind the answer.

Blank lines are passed over, and so are lines that begin with `%`: those hold
requests that the compiler makes.  A line that begins with `!` is not compiled.

The bytecode of a script is a first line with the kind of the module, and then the
script.  What a request is and which program it stands for, is left to the embedder.
-/

namespace ScriptModules.LineScript

variable {σ H : Type}

/-- The programs that requests in scripts stand for; none for a text that is no
request, an error for a request that is not known. -/
abbrev Calls (σ H α : Type) :=
  String → Except String (Program (loaderInterface σ H) α)

/-! ## Compiling -/

/-- Checks lines, the first of which has the number `n`, and makes the requests in
them. -/
def check (calls : Calls σ H Unit) (n : Nat) :
    List (List Char) → Program (loaderInterface σ H) (Option CompileError)
  | [] => .done none
  | line :: lines =>
    match line with
    | '!' :: _ => .done (some ⟨s!"unexpected token in '{String.ofList line}'", some n⟩)
    | '%' :: request =>
      match calls (String.ofList request) with
      | .error message => .done (some ⟨message, none⟩)
      | .ok call => call.bind fun _ => check calls (n + 1) lines
    | _ => check calls (n + 1) lines

/-- What bytecode begins with. -/
def mark : String := "FAKE "

/-- Compiles a script. -/
def compile (calls : Calls σ H Unit) (source : Bytes) (options : CompileOptions) :
    Program (loaderInterface σ H) (Except CompileError Bytes) :=
  match source.text? with
  | none => .done (.error ⟨"invalid utf-8", none⟩)
  | some text => (check calls 1 (Text.lines text)).bind fun
    | some e => .done (.error e)
    | none => .done (.ok (Bytes.ofText (mark ++ options.kind.name ++ "\n") ++ source))

/-! ## Running -/

/-- How a statement uses the module it loads. -/
inductive Use where
  /-- Bind its exports. -/
  | exports
  /-- Bind its export `ready`. -/
  | ready
  /-- Bind the text of the error, if there is one. -/
  | error
  deriving DecidableEq

/-- A statement. -/
inductive Statement where
  | define (name : String) (value : Json)
  | load (use : Use) (name specifier : String)
  | require (specifier : String)
  | throw (text : String)
  | bindId (name : String)
  | bindDependencies (name : String)
  | call (name request : String)
  /-- No statement, for a reason. -/
  | wrong (reason : String)

/-- The statement of a line. -/
def Statement.ofLine (line : List Char) : Statement :=
  let (word, rest) := (Text.around? [' '] line).getD (line, [])
  let parts (mark : String) (statement : List Char → List Char → Statement) : Statement :=
    match Text.around? mark.toList rest with
    | some (name, operand) => statement (trim name) operand
    | none => .wrong s!"malformed statement: {String.ofList line}"
  let loading (use : Use) : Statement :=
    parts " from " fun name specifier => .load use (String.ofList name) (String.ofList (trim specifier))
  match String.ofList word with
  | "export" => parts "=" fun name value =>
    let value := String.ofList (trim value)
    .define (String.ofList name) ((Json.ofText? value).getD (.string value))
  | "import" => loading .exports
  | "peek" => loading .ready
  | "try" => loading .error
  | "require" => .require (String.ofList rest)
  | "throw" => .throw (String.ofList rest)
  | "id" => .bindId (String.ofList rest)
  | "deps" => .bindDependencies (String.ofList rest)
  | "call" => parts "=" fun name request => .call (String.ofList name) (String.ofList request)
  | _ => .wrong s!"unknown statement: {String.ofList line}"

/-- Does an operation. -/
def operate (operation : Operation σ H) : Program (bodyInterface σ H) operation.Answer :=
  .ask (.request (.operation operation)) .done

/-- Binds a name in the exports of a module. -/
def bindExport (exports : Handle) (name : String) (value : Json) :
    Program (bodyInterface σ H) (Except Failure Unit) := do
  operate (.writeExport exports name value)
  return .ok ()

/-- Loads a module. -/
def dependency (specifier : String) : Program (bodyInterface σ H) (Except ModuleError Handle) :=
  .ask (.dependency specifier) .done

/-- What a statement does in the module with an id and exports. -/
def Statement.program (calls : Calls σ H Json) (id : String) (exports : Handle) :
    Statement → Program (bodyInterface σ H) (Except Failure Unit)
  | .define name value => bindExport exports name value
  | .load use name specifier => do
    match use, ← dependency specifier with
    | .exports, .ok handle =>
      bindExport exports name (.object (← operate (.readExports handle)))
    | .exports, .error e => return .error (.context "import failed" (.loader e))
    | .ready, .ok handle =>
      let bindings ← operate (.readExports handle)
      bindExport exports name ((bindings.lookup "ready").getD .null)
    | .ready, .error e => return .error (.loader e)
    | .error, .ok _ => bindExport exports name .null
    | .error, .error e => bindExport exports name (.string e.message)
  | .require specifier => do
    match ← dependency specifier with
    | .ok _ => return .ok ()
    | .error e => return .error (.loader e)
  | .throw text => .done (.error (.message text))
  | .bindId name => bindExport exports name (.string id)
  | .bindDependencies name =>
    .ask .dependencies fun ids => bindExport exports name (.ofTexts ids)
  | .call name request =>
    match calls request with
    | .error message => .done (.error (.message message))
    | .ok asking =>
      (asking.substitute fun request =>
        (.ask (.request request) .done : Program (bodyInterface σ H) _)).bind
      fun answer => bindExport exports name answer
  | .wrong reason => .done (.error (.message reason))

/-- Runs lines in turn until one fails. -/
def runLines (calls : Calls σ H Json) (id : String) (exports : Handle) :
    List (List Char) → Program (bodyInterface σ H) (Except Failure Unit)
  | [] => .done (.ok ())
  | line :: lines =>
    if line = [] ∨ line.head? = some '%' then runLines calls id exports lines
    else ((Statement.ofLine line).program calls id exports).bind fun
      | .ok () => runLines calls id exports lines
      | .error failure => .done (.error failure)

/-- The script in a text of bytecode.  A text without the mark is a script. -/
def scriptOf (text : String) : String :=
  match (textAfter? mark text) >>= fun rest => Text.around? ['\n'] rest.toList with
  | some (_, script) => String.ofList script
  | none => text

/-- Runs bytecode. -/
def execute (calls : Calls σ H Json) (bytecode : Bytes) (id : String) (exports : Handle) :
    BodyProgram σ H :=
  match bytecode.text? with
  | none => .done (.error (.message "bytecode is not utf-8"))
  | some text => runLines calls id exports (Text.lines (scriptOf text))

end ScriptModules.LineScript
