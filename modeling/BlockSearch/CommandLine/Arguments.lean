import BlockSearch.Text.Decimal

/-!
The arguments of the program. A first argument that is the name of a command begins that command; any other one begins
a search. Options and operands may be mixed; behind two dashes everything is an operand. An option or a switch may come
once, and a value may begin with a dash only where it is attached to its option.
-/

set_option autoImplicit false

namespace BlockSearch.CommandLine

-- What the arguments are about. A search is a `read` without its name.
inductive Mode where
  | search
  | read
  | request
  | settings
deriving DecidableEq, Repr

inductive ValueOption where
  | limit
  | root
deriving DecidableEq, Repr

inductive Switch where
  | compact
  | debug
  | noColour
  | help
deriving DecidableEq, Repr

inductive Flag where
  | value (option : ValueOption)
  | switch (switch : Switch)
deriving DecidableEq, Repr

inductive Stop where
  | usage
  | help
deriving DecidableEq, Repr

inductive Command where
  | read (symbols : Text) (paths : List Text) (limit : Option Nat) (compact : Bool)
  | request (file : Option Text)
  | settings
  | overview
deriving DecidableEq, Repr

structure Invocation where
  command : Command
  root : Option Text
  debug : Bool
  coloured : Bool
deriving DecidableEq, Repr

-- What the arguments so far have said; the last operand comes first.
structure State where
  operands : List Text
  limit : Option Nat
  root : Option Text
  switches : List Switch
  waiting : Option ValueOption
  literal : Bool
deriving DecidableEq, Repr

def State.start : State := ⟨[], none, none, [], none, false⟩

namespace Mode

def knows : Mode → Flag → Bool
  | .request, .value .limit => false
  | .request, .switch .compact => false
  | .settings, .value .limit => false
  | .settings, .switch .compact => false
  | _, _ => true

def hasRoom : Mode → Nat → Bool
  | .search, _ => true
  | .read, _ => true
  | .request, count => decide (count < 1)
  | .settings, _ => false

def takes : Mode → Text → Bool
  | .request, operand => !operand.isEmpty
  | _, _ => true

def longFlags : List (Text × Flag) :=
  [("limit".toList, .value .limit), ("root".toList, .value .root), ("compact".toList, .switch .compact),
   ("debug".toList, .switch .debug), ("no-color".toList, .switch .noColour), ("help".toList, .switch .help)]

def shortFlags : List (Char × Flag) := [('l', .value .limit), ('c', .switch .compact), ('h', .switch .help)]

def longFlag (mode : Mode) (name : Text) : Option Flag :=
  ((longFlags.find? fun pair => pair.1 == name).map Prod.snd).filter mode.knows

def shortFlag (mode : Mode) (letter : Char) : Option Flag :=
  ((shortFlags.find? fun pair => pair.1 == letter).map Prod.snd).filter mode.knows

end Mode

namespace State

def turnOn (state : State) (switch : Switch) : Except Stop State :=
  if switch = .help then .error .help
  else if state.switches.contains switch then .error .usage
  else .ok { state with switches := switch :: state.switches }

def give (state : State) (option : ValueOption) (value : Text) : Except Stop State :=
  match option with
  | .limit =>
      match state.limit, Decimal.word? value with
      | none, some limit => .ok { state with limit := some limit, waiting := none }
      | _, _ => .error .usage
  | .root =>
      if state.root.isSome || value.isEmpty then .error .usage
      else .ok { state with root := some value, waiting := none }

def addOperand (mode : Mode) (state : State) (operand : Text) : Except Stop State :=
  if mode.hasRoom state.operands.length && mode.takes operand then
    .ok { state with operands := operand :: state.operands }
  else .error .usage

def long (mode : Mode) (state : State) (text : Text) : Except Stop State :=
  let (name, value) := match Text.splitAtFirst ['='] text with
    | some (name, value) => (name, some value)
    | none => (text, none)
  match mode.longFlag name, value with
  | some (.value option), some value => state.give option value
  | some (.value option), none => .ok { state with waiting := some option }
  | some (.switch switch), none => state.turnOn switch
  | some (.switch _), some _ => .error .usage
  | none, _ => .error .usage

-- Letters behind one dash. The rest behind an option is its value, with or without an equals sign.
def cluster (mode : Mode) (state : State) : Text → Except Stop State
  | [] => .ok state
  | letter :: rest =>
      match mode.shortFlag letter with
      | some (.value option) =>
          if rest.isEmpty then .ok { state with waiting := some option }
          else state.give option ((Text.afterLead ['='] rest).getD rest)
      | some (.switch switch) =>
          match state.turnOn switch with
          | .ok state => cluster mode state rest
          | .error stop => .error stop
      | none => .error .usage

def next (mode : Mode) (state : State) (argument : Text) : Except Stop State :=
  if state.literal then addOperand mode state argument
  else
    match state.waiting, argument with
    | none, ['-', '-'] => .ok { state with literal := true }
    | none, '-' :: '-' :: text => long mode state text
    | none, '-' :: c :: letters => cluster mode state (c :: letters)
    | none, _ => addOperand mode state argument
    | some _, '-' :: _ :: _ => .error .usage
    | some option, _ => state.give option argument

def all (mode : Mode) (state : State) : List Text → Except Stop State
  | [] => if state.waiting.isSome then .error .usage else .ok state
  | argument :: rest =>
      match next mode state argument with
      | .ok state => all mode state rest
      | .error stop => .error stop

def command (mode : Mode) (state : State) : Except Stop Command :=
  match mode, state.operands.reverse with
  | .search, [] => .ok .overview
  | .read, [] => .error .usage
  | .request, operands => .ok (.request operands.head?)
  | .settings, _ => .ok .settings
  | _, symbols :: paths => .ok (.read symbols paths state.limit (state.switches.contains .compact))

def invocation (mode : Mode) (state : State) : Except Stop Invocation :=
  (command mode state).map fun command =>
    ⟨command, state.root, state.switches.contains .debug, !state.switches.contains .noColour⟩

end State

def parseIn (mode : Mode) (arguments : List Text) : Except Stop Invocation :=
  match State.all mode .start arguments with
  | .ok state => state.invocation mode
  | .error stop => .error stop

def commands : List (Text × Mode) :=
  [("read".toList, .read), ("request".toList, .request), ("config".toList, .settings)]

def helpName : Text := "help".toList

def helpFor : List Text → Stop
  | [] => .help
  | [topic] => if topic = helpName ∨ (commands.map Prod.fst).contains topic then .help else .usage
  | _ => .usage

def parse (arguments : List Text) : Except Stop Invocation :=
  match arguments with
  | [] => parseIn .search []
  | first :: rest =>
      if first = helpName then .error (helpFor rest)
      else match commands.find? fun pair => pair.1 == first with
        | some (_, mode) => parseIn mode rest
        | none => parseIn .search arguments

end BlockSearch.CommandLine
