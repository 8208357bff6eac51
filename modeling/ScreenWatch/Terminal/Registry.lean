/-!
# Registries

The members of a registry in the order in which they joined, each of them once.
-/

namespace ScreenWatch

structure Registry (α : Type) where
  members : List α := []
  deriving DecidableEq

namespace Registry

variable {α : Type} [DecidableEq α]

instance : Inhabited (Registry α) := ⟨{ }⟩

def empty : Registry α := { }

def size (r : Registry α) : Nat := r.members.length

def contains (r : Registry α) (a : α) : Bool := r.members.contains a

/-- A new member comes last; one that has joined already keeps its place. -/
def add (r : Registry α) (a : α) : Registry α :=
  if r.contains a then r else ⟨r.members ++ [a]⟩

def remove (r : Registry α) (a : α) : Registry α := ⟨r.members.erase a⟩

/-- `add`, and whether the registry has changed. -/
def tryAdd (r : Registry α) (a : α) : Bool × Registry α := (!r.contains a, r.add a)

/-- `remove`, and whether the registry has changed. -/
def tryRemove (r : Registry α) (a : α) : Bool × Registry α := (r.contains a, r.remove a)

theorem nodup_add {r : Registry α} (h : r.members.Nodup) (a : α) : (r.add a).members.Nodup := by
  unfold add
  split
  · exact h
  · next hn =>
    have hn : a ∉ r.members := by simpa [contains] using hn
    refine List.nodup_append.2 ⟨h, by simp, ?_⟩
    intro x hx y hy
    have : y = a := by simpa using hy
    subst this
    exact fun hxy => hn (hxy ▸ hx)

theorem nodup_remove {r : Registry α} (h : r.members.Nodup) (a : α) : (r.remove a).members.Nodup :=
  h.erase a

end Registry

end ScreenWatch
