import ScriptSandbox.Eval.Basic
/-!
Pattern matching. A pattern collects what it captures while it matches; nothing is bound before the
whole pattern has matched. The alternatives of a pattern need not capture the same names: the first
one that matches counts (§4.1).
-/

namespace ScriptSandbox.Eval

/-- Names with what they captured, in order. -/
abbrev Captures := List (String × Value)

/-- Adds a capture; no name can capture twice. -/
def capture (name : String) (value : Value) (captures : Captures) : Except Error Captures :=
  if captures.any (·.1 == name) then .error (.repeatedCapture name)
  else .ok (captures ++ [(name, value)])

/-- Adds a capture if there is a name for it. -/
def captureUnder : Option String → Value → Captures → Except Error Captures
  | none, _, captures => .ok captures
  | some name, value, captures => capture name value captures

/-- Whether a constant is a value: the null value and truth values are compared by identity. -/
def isSingleton (constant : Constant) (value : Value) : Bool :=
  match constant, value with
  | .none, .null => true
  | .bool expected, .bool actual => expected == actual
  | _, _ => false

def isStar : Pattern → Bool
  | .star _ => true
  | _ => false

/-- The items of a value that sequence patterns match. Texts are no sequences to them. -/
def sequenceItems? (s : Store) : Value → Option (Array Value)
  | .list r => some (s.list r)
  | .tuple _ items => some items
  | _ => none

/-- The items for the patterns of a sequence, aligned with them, and what the star captures if
there is one; none when there are too few or too many. The star's own place is filled with the null
value, since it captures when all others have matched. -/
def alignItems (patterns : List Pattern) (items : Array Value) :
    Except Error (Option (List Value × Array Value)) :=
  if 1 < (patterns.filter isStar).length then .error .multipleStarPatterns
  else
    match patterns.findIdx? isStar with
    | none => .ok (if items.size = patterns.length then some (items.toList, #[]) else none)
    | some star =>
      let others := patterns.length - 1
      if items.size < others then .ok none
      else
        let behind := items.size - (others - star)
        let aligned := items.extract 0 star ++ #[.null] ++ items.extract behind items.size
        .ok (some (aligned.toList, items.extract star behind))

/-- The name of a star among patterns. -/
def starName? : List Pattern → Option String
  | [] => none
  | .star name :: _ => name
  | _ :: rest => starName? rest

/-- Captures what a star stands for as a new list, if it has a name. -/
def captureStar (patterns : List Pattern) (middle : Array Value) (captures : Captures) :
    Eval Captures := do
  match starName? patterns with
  | none => pure captures
  | some name =>
    let value ← StoreM.newList middle
    capture name value captures

/-- A new dict of the entries whose keys equal none of the matched ones. -/
def remaining (r : DictRef) (matched : List Value) : Eval Value := do
  let rest ← look fun s =>
    Dict.ofPairs ((s.dict r).toList.filter fun (key, _) =>
      !matched.any fun other => s.plainlyEqual other key)
  StoreM.newDict rest

/-- Captures the entries that a mapping pattern leaves over, if it has a name for them. -/
def captureRemaining (r : DictRef) (matched : List Value) (rest : Option String)
    (captures : Captures) : Eval Captures := do
  match rest with
  | none => pure captures
  | some name => capture name (← remaining r matched) captures

variable (v : Visit)

mutual

/-- Matches a value; the captures with those of the pattern, or none where it does not match. -/
def matchPattern : Pattern → Value → Captures → Eval (Option Captures)
  | .value expr, subject, captures => do
    let value ← v.expr expr
    if ← look (·.equal subject value) then pure (some captures) else pure none
  | .singleton constant, subject, captures =>
    pure (if isSingleton constant subject then some captures else none)
  | .sequence patterns, subject, captures => do
    match sequenceItems? (← get).store subject with
    | none => pure none
    | some items =>
      match ← alignItems patterns items with
      | none => pure none
      | some (aligned, middle) =>
        match ← matchEach patterns aligned captures with
        | none => pure none
        | some captures => some <$> captureStar patterns middle captures
  | .mapping keys patterns rest, subject, captures => do
    match subject with
    | .dict r =>
      match ← matchEntries r patterns keys [] captures with
      | none => pure none
      | some (matched, captures) => some <$> captureRemaining r matched rest captures
    | _ => pure none
  | .star _, _, _ => throw .misplacedStarPattern
  | .as (some pattern) name, subject, captures => do
    match ← matchPattern pattern subject captures with
    | none => pure none
    | some captures => some <$> (captureUnder name subject captures : Except Error Captures)
  | .as none name, subject, captures =>
    some <$> (captureUnder name subject captures : Except Error Captures)
  | .or alternatives, subject, captures => matchAny alternatives subject captures

/-- Matches items one by one, stars excepted. -/
def matchEach : List Pattern → List Value → Captures → Eval (Option Captures)
  | .star _ :: patterns, _ :: items, captures => matchEach patterns items captures
  | pattern :: patterns, item :: items, captures => do
    match ← matchPattern pattern item captures with
    | none => pure none
    | some captures => matchEach patterns items captures
  | _, _, captures => pure (some captures)

/-- Tries alternatives in order. -/
def matchAny : List Pattern → Value → Captures → Eval (Option Captures)
  | [], _, _ => pure none
  | pattern :: rest, subject, captures => do
    match ← matchPattern pattern subject captures with
    | none => matchAny rest subject captures
    | some captures => pure (some captures)

/-- Matches the values under keys, each key evaluated in its turn; the keys are returned, too. -/
def matchEntries (r : DictRef) : List Pattern → List Expr → List Value → Captures →
    Eval (Option (List Value × Captures))
  | pattern :: patterns, key :: keys, matched, captures => do
    let key ← v.expr key
    match ← look fun s => (s.dict r).get? key with
    | none => pure none
    | some value =>
      match ← matchPattern pattern value captures with
      | none => pure none
      | some captures => matchEntries r patterns keys (matched ++ [key]) captures
  | _, _, matched, captures => pure (some (matched, captures))

end

/-- Binds all captures in the current scope. -/
def defineAll : Captures → Eval Unit
  | [] => pure ()
  | (name, value) :: rest => do
    define name value
    defineAll rest

/-- Executes the first case whose pattern matches and whose guard, if it has one, holds. -/
def firstCase (subject : Value) : List MatchCase → Eval Flow
  | [] => pure .normal
  | ⟨pattern, guard, body⟩ :: rest => do
    match ← matchPattern v pattern subject [] with
    | none => firstCase subject rest
    | some captures =>
      defineAll captures
      match guard with
      | none => block v body
      | some guard =>
        let holds ← v.expr guard
        if ← isTruthy holds then block v body else firstCase subject rest

end ScriptSandbox.Eval
