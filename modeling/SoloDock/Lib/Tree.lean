/-!
# Directory trees and their recursive removal

A directory is the list of what lies in it, itself included: each entry has its path from
the directory, which is the empty path itself, and a content. A recursive delete removes
one entry at a time, never one with something left below it, in an order of its own; what
is there when it stops is `removeAll t order`, for some list of paths.

The fact the proofs rest on: what is left of an entry is unchanged (`get_removeAll`).
-/

namespace SoloDock.Lib

abbrev Path := List String

abbrev FileTree (ν : Type) := List (Path × ν)

namespace FileTree

variable {ν : Type}

/-- The content at a path. -/
def get (t : FileTree ν) (p : Path) : Option ν := t.lookup p

/-- There is nothing below `p`. -/
def bare (t : FileTree ν) (p : Path) : Bool := t.all fun e => e.1 == p || !p.isPrefixOf e.1

/-- Remove the entry at `p`; a directory with something in it stays. -/
def remove (t : FileTree ν) (p : Path) : FileTree ν :=
  if t.bare p then t.filter fun e => e.1 != p else t

/-- The removals of a recursive delete, in the order it makes them. -/
def removeAll (t : FileTree ν) (order : List Path) : FileTree ν := order.foldl remove t

theorem get_filter (t : FileTree ν) (p q : Path) :
    get (t.filter fun e => e.1 != p) q = if q = p then none else t.get q := by
  unfold get
  induction t with
  | nil => simp
  | cons e t ih =>
    obtain ⟨r, v⟩ := e
    by_cases hrp : r = p
    · subst hrp
      by_cases hq : q = r
      · subst hq
        simpa using ih
      · have hne : (q == r) = false := by simpa using hq
        simpa [hq, List.lookup_cons, hne] using ih
    · by_cases hq : q = r
      · subst hq
        simp [hrp]
      · have hne : (q == r) = false := by simpa using hq
        simpa [hrp, List.lookup_cons, hne] using ih

/-- Removing an entry leaves every other as it is. -/
theorem get_remove (t : FileTree ν) (p q : Path) :
    (t.remove p).get q = t.get q ∨ (t.remove p).get q = none := by
  unfold remove
  split
  · rw [get_filter]
    split
    · exact .inr rfl
    · exact .inl rfl
  · exact .inl rfl

theorem get_removeAll (t : FileTree ν) (order : List Path) (q : Path) :
    (t.removeAll order).get q = t.get q ∨ (t.removeAll order).get q = none := by
  induction order generalizing t with
  | nil => exact .inl rfl
  | cons p order ih =>
    rcases ih (t.remove p) with h | h
    · rcases get_remove t p q with h' | h'
      · exact .inl (h.trans h')
      · exact .inr (h.trans h')
    · exact .inr h

end FileTree

end SoloDock.Lib
