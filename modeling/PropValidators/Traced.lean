import PropValidators.TypeExpr
/-!
Values with the trace of how they came about: what was skipped on the way, and which names were
looked up.
-/
namespace PropValidators

inductive Skip where
  | undeclared (type : Text)
  | unannotated (property : Text)
  | unsupported (property : Text) (kind : String)
  deriving DecidableEq, Repr

def Skip.message : Skip → Text
  | undeclared type => "Skipping type '" ++ type ++ "': not declared"
  | unannotated property => "Skipping property '" ++ property ++ "': no type annotation"
  | unsupported property kind =>
    "Skipping property '" ++ property ++ "': unsupported type '" ++ kind ++ "'"

/-- The line that a log has for a skip. -/
def Skip.record (s : Skip) : Text := "DEBUG: proptypegen.compiler.convert: " ++ s.message

/-- A value, what was skipped for it in order, and the names looked up for it in order. -/
structure Traced (α : Type) where
  value : α
  skips : List Skip
  lookups : List EntityName

namespace Traced

variable {α β : Type}

instance : Monad Traced where
  pure a := ⟨a, [], []⟩
  bind x f := ⟨(f x.value).value, x.skips ++ (f x.value).skips, x.lookups ++ (f x.value).lookups⟩

def skip (s : Skip) : Traced Unit := ⟨(), [s], []⟩

def lookup (name : EntityName) : Traced Unit := ⟨(), [], [name]⟩

@[simp] theorem value_pure (a : α) : (pure a : Traced α).value = a := rfl
@[simp] theorem skips_pure (a : α) : (pure a : Traced α).skips = [] := rfl
@[simp] theorem lookups_pure (a : α) : (pure a : Traced α).lookups = [] := rfl

@[simp] theorem value_bind (x : Traced α) (f : α → Traced β) :
    (x >>= f).value = (f x.value).value := rfl
@[simp] theorem skips_bind (x : Traced α) (f : α → Traced β) :
    (x >>= f).skips = x.skips ++ (f x.value).skips := rfl
@[simp] theorem lookups_bind (x : Traced α) (f : α → Traced β) :
    (x >>= f).lookups = x.lookups ++ (f x.value).lookups := rfl

@[simp] theorem skip_skips (s : Skip) : (skip s).skips = [s] := rfl
@[simp] theorem skip_lookups (s : Skip) : (skip s).lookups = [] := rfl
@[simp] theorem lookup_skips (name : EntityName) : (lookup name).skips = [] := rfl
@[simp] theorem lookup_lookups (name : EntityName) : (lookup name).lookups = [name] := rfl

end Traced

end PropValidators
