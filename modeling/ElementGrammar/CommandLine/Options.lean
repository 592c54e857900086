/-!
# Options of the command line

There are two options: one asks for help, and one, which takes a value, chooses
what is written.  An option is an argument that starts with a dash and does not end
there.

* After two dashes comes a name, and after an equals sign a value.  Where the
  option takes a value and has none, the next argument is its value.
* After one dash each letter is an option.
* Two dashes alone end the options; every other argument is an input.

`Options.scan` reads the arguments from left to right, and `Options.request` says
what they ask for.
-/

namespace ElementGrammar

/-- What is wrong with the arguments. -/
inductive OptionError where
  /-- No option has this name, or the argument is one too many. -/
  | unrecognized (name : String)
  /-- An option without the value that it takes. -/
  | missingValue (name : String)
  /-- An option with a value that it does not take. -/
  | unexpectedValue (name : String)
  /-- An option that is given again. -/
  | repeated (name : String)
  /-- Something that has to be given and is not. -/
  | missing (name : String)
  deriving DecidableEq, Repr

def OptionError.message : OptionError → String
  | .unrecognized name => s!"Unrecognized option: '{name}'"
  | .missingValue name => s!"Argument to option '{name}' missing"
  | .unexpectedValue name => s!"Option '{name}' does not take an argument"
  | .repeated name => s!"Option '{name}' given more than once"
  | .missing name => s!"Required option '{name}' missing"

/-- What is written where all goes well. -/
inductive Emit where
  | tree
  | schema
  deriving DecidableEq, Repr

inductive Request where
  | usage
  | process (input : String) (emit : Emit)
  deriving DecidableEq, Repr

/-- The arguments sorted out: how often help is asked for, the values of the option
that takes one, and the inputs. -/
structure Options where
  helps : Nat
  emits : List String
  inputs : List String
  deriving DecidableEq, Repr

namespace Options

def empty : Options := ⟨0, [], []⟩

def addHelps (helps : Nat) (o : Options) : Options :=
  { o with helps := helps + o.helps }

def addEmit (value : String) (o : Options) : Options :=
  { o with emits := value :: o.emits }

def addInputs (inputs : List String) (o : Options) : Options :=
  { o with inputs := inputs ++ o.inputs }

/-- What a long option is: a name, and a value where there is an equals sign. -/
def splitValue (cs : List Char) : String × Option String :=
  let name := String.ofList (cs.takeWhile (· != '='))
  match cs.dropWhile (· != '=') with
  | [] => (name, none)
  | _ :: value => (name, some (String.ofList value))

/-- Counts the calls for help in letters that are options. -/
def countHelps : List Char → Except OptionError Nat
  | [] => .ok 0
  | c :: cs =>
    if c = 'h' then (countHelps cs).map (· + 1) else .error (.unrecognized c.toString)

def scan : List String → Except OptionError Options
  | [] => .ok empty
  | argument :: rest =>
    match argument.toList with
    | ['-', '-'] => .ok (empty.addInputs rest)
    | '-' :: '-' :: cs =>
      let (name, value?) := splitValue cs
      if name = "help" ∨ name = "h" then
        match value? with
        | some _ => .error (.unexpectedValue name)
        | none => (scan rest).map (addHelps 1)
      else if name = "emit" then
        match value?, rest with
        | some value, rest => (scan rest).map (addEmit value)
        | none, value :: rest => (scan rest).map (addEmit value)
        | none, [] => .error (.missingValue name)
      else .error (.unrecognized name)
    | '-' :: c :: cs =>
      match countHelps (c :: cs) with
      | .error e => .error e
      | .ok helps => (scan rest).map (addHelps helps)
    | _ => (scan rest).map (addInputs [argument])

def checkRepeats (o : Options) : Except OptionError Unit :=
  if 1 < o.emits.length then .error (.repeated "emit")
  else if 1 < o.helps then .error (.repeated "help")
  else .ok ()

/-- The output that a value chooses. -/
def emit? : List String → Option Emit
  | [] => some .schema
  | value :: _ =>
    if value = "xsd" then some .schema
    else if value = "tree" then some .tree
    else none

/-- What arguments without repeats ask for. -/
def request (o : Options) : Except OptionError Request :=
  if 0 < o.helps then .ok .usage
  else
    match o.inputs with
    | [] => .error (.missing "INPUT")
    | _ :: second :: _ => .error (.unrecognized second)
    | [input] =>
      match emit? o.emits with
      | some emit => .ok (.process input emit)
      | none => .error (.missingValue "--emit tree|xsd")

end Options

def Request.ofArguments (arguments : List String) : Except OptionError Request :=
  match Options.scan arguments with
  | .error e => .error e
  | .ok options =>
    match options.checkRepeats with
    | .error e => .error e
    | .ok _ => options.request

end ElementGrammar
