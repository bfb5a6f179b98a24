import SoloDock.Lib.Keyed

/-!
# Listings in pages

A listing is read page by page: a page ends with a cursor, the key of its last element, if
there is more, and the next page starts after it. `follow` reads pages until there is no
cursor. If every page is the beginning of what comes after its cursor, then following the
cursors reads the whole listing (`follow_listing`); the induction is on what is left.
-/

namespace SoloDock.Lib

variable {α κ ε : Type}

/-- The page at the beginning of `rest`, with the cursor of the next one. -/
def pageOf (key : α → κ) (limit : Nat) (rest : List α) : List α × Option κ :=
  (rest.take limit, if limit < rest.length then (rest.take limit).getLast?.map key else none)

/-- The pages from a cursor on, as long as the fuel lasts. -/
def follow (fetch : Option κ → Except ε (List α × Option κ)) :
    Nat → Option κ → Option (List (List α))
  | 0, _ => none
  | fuel + 1, cursor =>
    match fetch cursor with
    | .error _ => none
    | .ok (page, none) => some [page]
    | .ok (page, some next) => (follow fetch fuel (some next)).map (page :: ·)

variable {fetch : Option κ → Except ε (List α × Option κ)}

/-- What is left after `before` is read to its end, with enough fuel. -/
theorem follow_rest {key : α → κ} {limit : Nat} (hlimit : 0 < limit) {listing : List α}
    (hfetch : ∀ before rest, listing = before ++ rest →
      fetch (before.getLast?.map key) = .ok (pageOf key limit rest))
    {fuel : Nat} {before rest : List α} (hsplit : listing = before ++ rest)
    (hfuel : rest.length < fuel) :
    ∃ pages, follow fetch fuel (before.getLast?.map key) = some pages ∧ pages.flatten = rest ∧
      ∀ page ∈ pages.dropLast, page.length = limit := by
  induction fuel generalizing before rest with
  | zero => exact absurd hfuel (Nat.not_lt_zero _)
  | succ fuel ih =>
    rw [follow, hfetch before rest hsplit, pageOf]
    by_cases hmore : limit < rest.length
    · -- the page is full, and its last element is the cursor
      have hlen : (rest.take limit).length = limit := List.length_take_of_le (Nat.le_of_lt hmore)
      have hne : rest.take limit ≠ [] := fun he => by
        rw [he] at hlen
        exact absurd hlen (Nat.ne_of_lt hlimit)
      have hsplit' : listing = (before ++ rest.take limit) ++ rest.drop limit := by
        rw [List.append_assoc, List.take_append_drop]
        exact hsplit
      obtain ⟨last, hsome⟩ : ∃ last, (rest.take limit).getLast? = some last :=
        ⟨_, List.getLast?_eq_some_getLast hne⟩
      have hlast : (before ++ rest.take limit).getLast? = some last := by
        rw [List.getLast?_append, hsome]
        rfl
      have hshort : (rest.drop limit).length < fuel := by
        rw [List.length_drop]
        omega
      obtain ⟨pages, hpages, hflat, hfull⟩ := ih hsplit' hshort
      rw [hlast] at hpages
      rw [if_pos hmore, hsome]
      dsimp only [Option.map_some] at hpages ⊢
      rw [hpages]
      refine ⟨rest.take limit :: pages, rfl, ?_, fun page hpage => ?_⟩
      · rw [List.flatten_cons, hflat, List.take_append_drop]
      · cases pages with
        | nil => simp at hpage
        | cons p ps =>
          rw [List.dropLast_cons_of_ne_nil (List.cons_ne_nil _ _), List.mem_cons] at hpage
          rcases hpage with rfl | hpage
          · exact hlen
          · exact hfull page hpage
    · rw [if_neg hmore]
      refine ⟨[rest.take limit], rfl, ?_, fun page hpage => ?_⟩
      · rw [List.take_of_length_le (Nat.le_of_not_lt hmore)]
        simp
      · simp at hpage

/-- Following the cursors reads the listing, in order, in full pages but the last. -/
theorem follow_listing {key : α → κ} {limit : Nat} (hlimit : 0 < limit) {listing : List α}
    (hfetch : ∀ before rest, listing = before ++ rest →
      fetch (before.getLast?.map key) = .ok (pageOf key limit rest)) :
    ∃ pages, follow fetch (listing.length + 1) none = some pages ∧ pages.flatten = listing ∧
      ∀ page ∈ pages.dropLast, page.length = limit :=
  follow_rest hlimit hfetch (show listing = [] ++ listing from rfl) (Nat.lt_succ_self _)

end SoloDock.Lib
