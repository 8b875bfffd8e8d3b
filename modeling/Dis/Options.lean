import Dis.Log
/-!
# Command-line syntax

A command line is described by a `Spec`: switches, which start with a dash and may take a value,
and slots, which are filled by the other arguments from left to right.

* Every argument is classified first: switch, ordinary argument, or the mark `--`, behind which
  everything is ordinary. A long switch may be shortened as long as it stays unambiguous, a value
  may be joined by `=`, and one-letter switches may be clustered.
* Then the line is consumed from left to right. Each run of ordinary arguments fills as many slots
  as it can; slots that may be empty and get nothing count as filled. A mark among the arguments of
  a slot or joined to a switch is dropped, so a switch may be given and still have no value.
* What finds no place is reported at the end, after the required slots that stayed empty.

The rules are those of `argparse` 3.11 before 3.11.10. Later ones keep a mark that is joined to a
switch (`takeOrDrop`) and read clusters of one-letter switches differently (`Spec.cluster`).

`σ` is the record that switches and slots write to.
-/
namespace Dis.Options

/-- The mark behind which everything is ordinary. -/
def mark : String := "--"

/-- What a switch that was given holds: a value, or none, because the value was the mark. -/
inductive Given (α : Type)
  | value (a : α)
  | dropped
  deriving DecidableEq, Repr

/-- What a switch does. -/
inductive Effect (σ : Type)
  /-- Show the help text and leave. -/
  | help
  /-- Note that the switch was given. -/
  | mark (set : σ → σ)
  /-- Take one value, or say what is wrong with it; `drop` is for a value that was the mark. -/
  | value (take : String → σ → Except String σ) (drop : σ → σ)

/-- A switch: its names, its effect, and the switches it cannot be combined with. -/
structure Switch (σ : Type) where
  names : List String
  effect : Effect σ
  rivals : List String := []

/-- A place for an ordinary argument. -/
structure Slot (σ : Type) where
  name : String
  required : Bool
  take : String → σ → Except String σ

/-- A command line's description. -/
structure Spec (σ : Type) where
  program : String
  usage : String
  details : String := ""
  switches : List (Switch σ) := []
  slots : List (Slot σ) := []

/-- What a command line comes to. -/
inductive Outcome (σ : Type)
  | parsed (s : σ)
  | help
  | refused (why : String)

/-- An argument, classified. -/
inductive Token (σ : Type)
  | plain (text : String)
  /-- The mark behind which everything is ordinary. -/
  | dashes
  /-- A switch by one of its names, with the value joined to it; no switch if it is unknown. -/
  | switch (sw : Option (Switch σ)) (name : String) (joined : Option String) (text : String)

variable {σ : Type}

/-- The name of a switch in messages. -/
def Switch.shown (sw : Switch σ) : String := "/".intercalate sw.names

/-- Whether a switch takes a value. -/
def Switch.takesValue (sw : Switch σ) : Bool :=
  match sw.effect with
  | .value .. => true
  | _ => false

/-- Every name of every switch, in order. -/
def Spec.named (spec : Spec σ) : List (String × Switch σ) :=
  spec.switches.flatMap fun sw => sw.names.map fun name => (name, sw)

/-- The switch with a given name. -/
def Spec.find? (spec : Spec σ) (name : String) : Option (Switch σ) :=
  (spec.named.find? (·.1 = name)).map (·.2)

/-! ## Classification -/

/-- A text cut at its first `=`. -/
def cutAtEquals (cs : List Char) : String × Option String :=
  let name := String.ofList (cs.takeWhile (· ≠ '='))
  match cs.dropWhile (· ≠ '=') with
  | [] => (name, none)
  | _ :: rest => (name, some (String.ofList rest))

/-- Whether a text is a negative number: a dash and digits, or a dash and digits around a point
with one digit behind it at least. One line feed may follow. -/
def isNegativeNumber (cs : List Char) : Bool :=
  match cs with
  | '-' :: body =>
    let body := if body.getLast? = some '\n' then body.dropLast else body
    let behind := (body.dropWhile Text.isDecimalDigit)
    match behind with
    | [] => !body.isEmpty
    | '.' :: fraction => !fraction.isEmpty && fraction.all Text.isDecimalDigit
    | _ => false
  | _ => false

/-- The switches a text may mean that is no exact name: what a long one shortens, or the
one-letter switch it starts with. -/
def Spec.candidates (spec : Spec σ) (text : String) : List (String × Switch σ × Option String) :=
  match text.toList with
  | '-' :: '-' :: _ =>
    let (name, joined) := cutAtEquals text.toList
    (spec.named.filter fun (n, _) => name.toList.isPrefixOf n.toList).map
      fun (n, sw) => (n, sw, joined)
  | '-' :: c :: rest =>
    spec.named.filterMap fun (n, sw) =>
      if n = String.ofList ['-', c] then some (n, sw, some (String.ofList rest))
      else if text.toList.isPrefixOf n.toList then some (n, sw, none)
      else none
  | _ => []

/-- Classify one argument in front of the mark `--`. -/
def Spec.classify (spec : Spec σ) (text : String) : Except String (Token σ) :=
  match text.toList with
  | [] => .ok (.plain text)
  | c :: cs =>
    if c ≠ '-' then .ok (.plain text)
    else match spec.find? text with
      | some sw => .ok (.switch (some sw) text none text)
      | none =>
        if cs.isEmpty then .ok (.plain text)
        else
          let (name, joined) := cutAtEquals text.toList
          match joined, spec.find? name with
          | some value, some sw => .ok (.switch (some sw) name (some value) text)
          | _, _ => match spec.candidates text with
            | [(name, sw, joined)] => .ok (.switch (some sw) name joined text)
            | [] =>
              if isNegativeNumber text.toList || text.toList.contains ' ' then .ok (.plain text)
              else .ok (.switch none text none text)
            | several =>
              let names := ", ".intercalate (several.map (·.1))
              .error s!"ambiguous option: {text} could match {names}"

/-- Classify all arguments. -/
def Spec.classifyAll (spec : Spec σ) : List String → Except String (List (Token σ))
  | [] => .ok []
  | text :: rest =>
    if text = mark then .ok (.dashes :: rest.map .plain)
    else do
      let token ← spec.classify text
      let tokens ← spec.classifyAll rest
      .ok (token :: tokens)

/-! ## Consumption -/

/-- Where consumption stands: the record so far, the switches given, the slots still open, and the
arguments without a place. -/
structure State (σ : Type) where
  record : σ
  given : List String
  slots : List (Slot σ)
  extra : List String      -- last first

/-- Why consumption ends early. -/
inductive Stop
  | help
  | refused (why : String)

/-- A complaint about an argument. -/
def complaint (name why : String) : Stop := .refused s!"argument {name}: {why}"

/-- A switch and the value it takes, if any. -/
abbrev Taken (σ : Type) := Switch σ × Option String

/-- The record after a switch took a text, or dropped it because it was the mark, joined or not, as
`argparse` does before 3.11.10. -/
def takeOrDrop (take : String → σ → Except String σ) (drop : σ → σ) (text : String) (record : σ) :
    Except String σ :=
  if text = mark then .ok (drop record) else take text record

/-- Let a switch take effect. -/
def State.take (s : State σ) (taken : Taken σ) : Except Stop (State σ) :=
  let (sw, value) := taken
  match sw.effect, value with
  | .help, _ => .error .help
  | .mark set, _ => .ok { s with record := set s.record, given := sw.shown :: s.given }
  | .value take drop, value => match takeOrDrop take drop (value.getD "") s.record with
    | .error why => .error (complaint sw.shown why)
    | .ok record => match sw.rivals.find? (s.given.contains ·) with
      | some rival => .error (complaint sw.shown s!"not allowed with argument {rival}")
      | none => .ok { s with record, given := sw.shown :: s.given }

/-- Let switches take effect in turn. -/
def State.takeAll (s : State σ) : List (Taken σ) → Except Stop (State σ)
  | [] => .ok s
  | taken :: rest => match s.take taken with
    | .error stop => .error stop
    | .ok s => s.takeAll rest

/-- The complaint about a text joined to a switch that takes none. -/
def ignored (sw : Switch σ) (joined : List Char) : Stop :=
  complaint sw.shown s!"ignored explicit argument {Text.quote (String.ofList joined)}"

/-- Resolve a cluster: a switch with a text joined to it. A one-letter switch that takes no value
leaves the text to the next letter, and a letter that is no switch makes the whole text too much, as
in `argparse` before 3.11.10. The second part says whether the last switch of the cluster still
needs a value. -/
def Spec.cluster (spec : Spec σ) (sw : Switch σ) (name : String) (done : List (Taken σ)) :
    List Char → Except Stop (List (Taken σ) × Option (Switch σ))
  | [] =>
    if sw.takesValue then .ok (((sw, some "") :: done).reverse, none)
    else .error (ignored sw [])
  | c :: cs =>
    if sw.takesValue then .ok (((sw, some (String.ofList (c :: cs))) :: done).reverse, none)
    else if mark.toList.isPrefixOf name.toList then .error (ignored sw (c :: cs))
    else
      let next := String.ofList ['-', c]
      match spec.find? next with
      | none => .error (ignored sw (c :: cs))
      | some sw' =>
        let done := (sw, none) :: done
        match cs with
        | [] => if sw'.takesValue then .ok (done.reverse, some sw')
          else .ok (((sw', none) :: done).reverse, none)
        | _ :: _ => spec.cluster sw' next done cs

/-- The switches a switch token stands for, and one that still needs a value. -/
def Spec.expand (spec : Spec σ) (sw : Switch σ) (name : String) (joined : Option String) :
    Except Stop (List (Taken σ) × Option (Switch σ)) :=
  match joined with
  | some text => spec.cluster sw name [] text.toList
  | none => if sw.takesValue then .ok ([], some sw) else .ok ([(sw, none)], none)

/-- Whether a token is no switch. -/
def Token.isOrdinary : Token σ → Bool
  | .switch .. => false
  | _ => true

/-- Whether a token is the mark `--`. -/
def Token.isDashes : Token σ → Bool
  | .dashes => true
  | _ => false

/-- An argument as it was given. -/
def Token.text : Token σ → String
  | .plain text => text
  | .dashes => mark
  | .switch _ _ _ text => text

/-- What one slot takes from the front of a run: an argument with the marks around it. The first
mark is dropped; nothing may be left. No result if a required slot finds no argument. -/
def takeForSlot (required : Bool) (run : List (Token σ)) :
    Option (Option String × List (Token σ)) :=
  let before := run.takeWhile Token.isDashes
  let rest := run.dropWhile Token.isDashes
  if required && rest.isEmpty then none
  else
    let own := rest.take 1
    let rest := rest.drop 1
    let behind := rest.takeWhile Token.isDashes
    let rest := rest.dropWhile Token.isDashes
    let texts := ((before ++ own ++ behind).map Token.text).erase mark
    some (texts.head?, rest)

/-- Fill open slots from a run; gives what is left of the run. -/
def fillSlots (s : State σ) (run : List (Token σ)) :
    List (Slot σ) → Except Stop (State σ × List (Token σ))
  | [] => .ok ({ s with slots := [] }, run)
  | slot :: slots => match takeForSlot slot.required run with
    | none => .ok ({ s with slots := slot :: slots }, run)
    | some (none, rest) => fillSlots s rest slots
    | some (some text, rest) => match slot.take text s.record with
      | .error why => .error (complaint slot.name why)
      | .ok record => fillSlots { s with record } rest slots

/-- Consume a run of ordinary arguments: fill slots, and keep the rest without a place. -/
def State.consumeRun (s : State σ) (run : List (Token σ)) : Except Stop (State σ) :=
  match fillSlots s run s.slots with
  | .error stop => .error stop
  | .ok (s, rest) => .ok { s with extra := (rest.map Token.text).reverse ++ s.extra }

/-- Consume classified arguments. `run` holds the ordinary arguments read since the last switch,
last first. -/
def Spec.consume (spec : Spec σ) (s : State σ) (run : List (Token σ)) :
    List (Token σ) → Except Stop (State σ)
  | [] => s.consumeRun run.reverse
  | .switch sw name joined text :: rest =>
    match if run.isEmpty then .ok s else s.consumeRun run.reverse with
    | .error stop => .error stop
    | .ok s => match sw with
      | none => spec.consume { s with extra := text :: s.extra } [] rest
      | some sw => match spec.expand sw name joined with
        | .error stop => .error stop
        | .ok (taken, none) => match s.takeAll taken with
          | .error stop => .error stop
          | .ok s => spec.consume s [] rest
        | .ok (taken, some needy) => match rest with
          | .plain value :: rest => match s.takeAll (taken ++ [(needy, some value)]) with
            | .error stop => .error stop
            | .ok s => spec.consume s [] rest
          | _ => .error (complaint needy.shown "expected one argument")
  | token :: rest => spec.consume s (token :: run) rest

/-- Read a command line. -/
def Spec.parse (spec : Spec σ) (start : σ) (args : List String) : Outcome σ :=
  match spec.classifyAll args with
  | .error why => .refused why
  | .ok tokens =>
    match spec.consume ⟨start, [], spec.slots, []⟩ [] tokens with
    | .error .help => .help
    | .error (.refused why) => .refused why
    | .ok s =>
      let missing := (s.slots.filter (·.required)).map (·.name)
      if !missing.isEmpty then
        .refused ("the following arguments are required: " ++ ", ".intercalate missing)
      else if !s.extra.isEmpty then
        .refused ("unrecognized arguments: " ++ " ".intercalate s.extra.reverse)
      else .parsed s.record

/-- What a refused command line prints: the usage and the reason. -/
def Spec.complain (spec : Spec σ) (why : String) : Array Event :=
  #[.err spec.usage, .errLine s!"{spec.program}: error: {why}"]

/-- The help text. -/
def Spec.help (spec : Spec σ) : String := spec.usage ++ spec.details

/-! ## Values with a condition -/

/-- Take one of a few texts. -/
def oneOf (choices : List String) (set : String → σ → σ) (text : String) (s : σ) :
    Except String σ :=
  if choices.contains text then .ok (set text s)
  else
    let shown := ", ".intercalate (choices.map Text.quote)
    .error s!"invalid choice: {Text.quote text} (choose from {shown})"

/-- Take a decimal integer. -/
def integer (set : Int → σ → σ) (text : String) (s : σ) : Except String σ :=
  match Text.readInt (.fixed 10) text with
  | .ok n => .ok (set n s)
  | .error _ => .error s!"invalid int value: {Text.quote text}"

/-- Take an integer of any base that is one at least.
mirrors `_positive` -/
def positive (set : Int → σ → σ) (text : String) (s : σ) : Except String σ :=
  match Text.readInt .auto text with
  | .ok n => if n < 1 then .error "count must be positive" else .ok (set n s)
  | .error _ => .error s!"invalid _positive value: {Text.quote text}"

/-- Take any text. -/
def anyText (set : String → σ → σ) (text : String) (s : σ) : Except String σ :=
  .ok (set text s)

/-- Take a value by one of the rules above, and note when it was dropped. -/
def noting {α : Type} (take : (α → σ → σ) → String → σ → Except String σ)
    (set : Given α → σ → σ) : Effect σ :=
  .value (take fun a => set (.value a)) (set .dropped)

end Dis.Options
