import PropValidators.Json.Basic
/-!
Checking a document: a value, or every fault that keeps the document from being one, each with
its cause and its place. Faults are collected in the order of the parts they are found in.
-/
namespace PropValidators

/-- Why a part of a document is not what it stands for. A `variant` is a value that is told apart
from others in its place by its `kind`; a `record` is one that needs no telling apart. -/
inductive FaultCause where
  | notJson
  | missing
  | notString
  | unpairedSurrogate
  | notList
  | notMapping
  | notRecord
  | notVariant
  | kindMissing
  | kindUnknown
  | kindMismatch
  | notBoolean
  | unreadableBoolean
  | notInteger
  | notFloat
  deriving DecidableEq, Repr

/-- One step on the way to a part of a document. -/
inductive DocumentStep where
  | name (name : String)
  | index (index : Nat)
  deriving DecidableEq, Repr

/-- A fault and where it is. -/
structure Fault where
  path : List DocumentStep
  cause : FaultCause
  deriving DecidableEq, Repr

def FaultCause.message : FaultCause → String
  | notJson => "not a JSON text"
  | missing => "missing"
  | notString => "not a string"
  | unpairedSurrogate => "not Unicode text"
  | notList => "not a list"
  | notMapping => "not a mapping"
  | notRecord => "not an object"
  | notVariant => "not an object with a kind"
  | kindMissing => "without a kind"
  | kindUnknown => "of an unknown kind"
  | kindMismatch => "not the kind of this place"
  | notBoolean => "not a truth value"
  | unreadableBoolean => "not readable as a truth value"
  | notInteger => "not an integer"
  | notFloat => "not a number"

def DocumentStep.text : DocumentStep → String
  | name n => n
  | index i => String.ofList (Digits.ofNat i)

def Fault.message (f : Fault) : String :=
  match f.path with
  | [] => f.cause.message
  | path => ".".intercalate (path.map DocumentStep.text) ++ ": " ++ f.cause.message

/-- The same fault seen from one step above. -/
def Fault.under (step : DocumentStep) (f : Fault) : Fault := { f with path := step :: f.path }

/-- A valid value, or at least one fault. -/
inductive Checked (α : Type) where
  | valid (value : α)
  | faulty (first : Fault) (others : List Fault)

namespace Checked

variable {α β γ : Type}

/-- A single fault in the part itself. -/
def fault (cause : FaultCause) : Checked α := faulty ⟨[], cause⟩ []

def faults : Checked α → List Fault
  | valid _ => []
  | faulty first others => first :: others

/-- The value, or all faults as one error. -/
def toExcept : Checked α → Except (List Fault) α
  | valid value => .ok value
  | faulty first others => .error (first :: others)

def under (step : DocumentStep) : Checked α → Checked α
  | valid value => valid value
  | faulty first others => faulty (first.under step) (others.map (Fault.under step))

def underName (name : String) (x : Checked α) : Checked α := x.under (.name name)

def map (f : α → β) : Checked α → Checked β
  | valid value => valid (f value)
  | faulty first others => faulty first others

/-- Two parts together: both values, or the faults of the first before those of the second. -/
def combine (f : α → β → γ) : Checked α → Checked β → Checked γ
  | valid a, valid b => valid (f a b)
  | valid _, faulty first others => faulty first others
  | faulty first others, y => faulty first (others ++ y.faults)

instance : Functor Checked where
  map := map

instance : Applicative Checked where
  pure := valid
  seq f x := combine (fun f a => f a) f (x ())

@[simp] theorem faults_valid (a : α) : (valid a).faults = [] := rfl

@[simp] theorem faults_map (f : α → β) (x : Checked α) : (x.map f).faults = x.faults := by
  cases x <;> rfl

@[simp] theorem faults_combine (f : α → β → γ) (x : Checked α) (y : Checked β) :
    (combine f x y).faults = x.faults ++ y.faults := by
  cases x <;> cases y <;> simp [combine, faults]

@[simp] theorem faults_under (step : DocumentStep) (x : Checked α) :
    (x.under step).faults = x.faults.map (Fault.under step) := by
  cases x <;> rfl

/-- The values of a list, or the faults of all its items, each under its index from `start` on. -/
def eachFrom (start : Nat) : (items : List Json) →
    (check : (item : Json) → item ∈ items → Checked α) → Checked (List α)
  | [], _ => valid []
  | item :: items, check =>
    combine (· :: ·) ((check item List.mem_cons_self).under (.index start))
      (eachFrom (start + 1) items fun later h => check later (List.mem_cons_of_mem _ h))

/-- The values of a list, or the faults of all its items, each under its index. -/
def each (items : List Json) (check : (item : Json) → sizeOf item < sizeOf items → Checked α) :
    Checked (List α) :=
  eachFrom 0 items fun item h => check item (List.sizeOf_lt_of_mem h)

end Checked

abbrev Members := List (JoinedText × Json)

namespace Members

variable {α : Type}

/-- The value of the last member with a name. -/
def last? (members : Members) (name : String) : Option Json :=
  Keyed.last? (name : JoinedText) members

theorem sizeOf_lt_of_last? {members : Members} {name : String} {j : Json}
    (h : members.last? name = some j) : sizeOf j < sizeOf members :=
  Keyed.sizeOf_lt_of_last? h

def required (members : Members) (name : String)
    (check : (j : Json) → sizeOf j < sizeOf members → Checked α) : Checked α :=
  match h : members.last? name with
  | some j => (check j (sizeOf_lt_of_last? h)).underName name
  | none => (Checked.fault .missing).underName name

def optional (members : Members) (name : String) (default : α)
    (check : (j : Json) → sizeOf j < sizeOf members → Checked α) : Checked α :=
  match h : members.last? name with
  | some j => (check j (sizeOf_lt_of_last? h)).underName name
  | none => .valid default

/-- The kind that tells a variant apart. -/
def kind (members : Members) : Except FaultCause String :=
  match members.last? "kind" with
  | none => .error .kindMissing
  | some (.string t) =>
    match t.points.toString? with
    | some kind => .ok kind
    | none => .error .kindUnknown
  | some _ => .error .kindUnknown

/-- The kind of a record, which may be left out and is the expected one if it is there. -/
def fixedKind (members : Members) (expected : String) : Checked Unit :=
  members.optional "kind" () fun j _ =>
    match j with
    | .string t => if t = (expected : JoinedText) then .valid () else .fault .kindMismatch
    | _ => .fault .kindMismatch

end Members

namespace Json

variable {α : Type}

def checkText : Json → Checked JoinedText
  | string t => .valid t
  | _ => .fault .notString

/-- A string without surrogates. -/
def checkString : Json → Checked String
  | string t =>
    match t.points.toString? with
    | some s => .valid s
    | none => .fault .unpairedSurrogate
  | _ => .fault .notString

def checkStringOrNull : Json → Checked (Option String)
  | null => .valid none
  | j => (checkString j).map some

/-- A list of values that are checked one by one. -/
def checkList (j : Json) (check : (item : Json) → sizeOf item < sizeOf j → Checked α) :
    Checked (List α) :=
  match j with
  | array items => Checked.each items fun item h =>
    check item (Nat.lt_trans h (by simp only [array.sizeOf_spec]; omega))
  | _ => .fault .notList

end Json

end PropValidators
