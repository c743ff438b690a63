import Mathlib.Data.List.Infix
import Mathlib.Tactic.Common

/-!
# Cutting items off the front of a stream

A receiver appends what arrives to a store and takes items off its front as long as a
complete one is there.  `Extractor` is the rule that recognises an item.  It is stable: what
it has found in the bytes so far it also finds when more bytes follow.  So the items do not
depend on how the stream was cut into pieces (`Extractor.feed_eq_drain`).

`delimited pat` is the extractor of items that end with the word `pat`, which it finds with
`search`; what it takes from a stream are the `Pieces` of the stream.
-/

namespace Chaonet
namespace Foundation

variable {α β : Type*}

/-! ## The first occurrence of a word -/

section Search

variable [DecidableEq α] {pat v w : List α}

/-- `std::search`: the position of the first occurrence of `pat` in `v`, or the length of `v`. -/
def search (pat : List α) : List α → Nat
  | [] => 0
  | a :: v => if pat <+: a :: v then 0 else search pat v + 1

theorem search_le (pat v : List α) : search pat v ≤ v.length := by
  induction v with
  | nil => exact Nat.le_refl 0
  | cons a v ih =>
      rw [search]
      split_ifs
      · exact Nat.zero_le _
      · exact Nat.succ_le_succ ih

/-- What `search` finds is an occurrence. -/
theorem prefix_drop_search (h : search pat v < v.length) : pat <+: v.drop (search pat v) := by
  induction v with
  | nil => exact absurd h (Nat.lt_irrefl 0)
  | cons a v ih =>
      rw [search] at h ⊢
      split_ifs at h ⊢ with hhead
      · exact hhead
      · exact ih (Nat.lt_of_succ_lt_succ h)

/-- No occurrence comes before the one `search` finds. -/
theorem search_le_of_occurs {u : List α} (h : u ++ pat <+: v) : search pat v ≤ u.length := by
  induction v generalizing u with
  | nil => exact Nat.zero_le _
  | cons a v ih =>
      rw [search]
      split_ifs with hhead
      · exact Nat.zero_le _
      · cases u with
        | nil => exact absurd h hhead
        | cons b u =>
            rw [List.cons_append, List.cons_prefix_cons] at h
            exact Nat.succ_le_succ (ih h.2)

theorem search_eq_length (hne : pat ≠ []) : search pat v = v.length ↔ ¬pat <:+: v := by
  constructor
  · rintro hsearch ⟨u, t, rfl⟩
    have hle : search pat (u ++ pat ++ t) ≤ u.length := search_le_of_occurs (List.prefix_append _ _)
    have hpos : 0 < pat.length := List.length_pos_iff.mpr hne
    simp only [List.length_append] at hsearch
    omega
  · intro hnone
    by_contra hsearch
    have hlt : search pat v < v.length := Nat.lt_of_le_of_ne (search_le pat v) hsearch
    exact hnone ((prefix_drop_search hlt).isInfix.trans (List.drop_suffix _ _).isInfix)

/-- An occurrence that was found stays the first one when more follows: a word that crosses the
end of `v` would begin behind it. -/
theorem search_append (h : search pat v < v.length) (w : List α) :
    search pat (v ++ w) = search pat v := by
  induction v with
  | nil => exact absurd h (Nat.lt_irrefl 0)
  | cons a v ih =>
      by_cases hhead : pat <+: a :: v
      · have hhead' : pat <+: a :: (v ++ w) := hhead.trans (List.prefix_append (a :: v) w)
        rw [List.cons_append, search, search, if_pos hhead, if_pos hhead']
      · rw [search, if_neg hhead] at h
        have hlt : search pat v < v.length := Nat.lt_of_succ_lt_succ h
        have hshort : pat.length ≤ (a :: v).length := by
          have hoccurs := (prefix_drop_search hlt).length_le
          rw [List.length_drop] at hoccurs
          rw [List.length_cons]
          omega
        have hhead' : ¬pat <+: a :: (v ++ w) := fun hcross =>
          hhead (List.prefix_of_prefix_length_le hcross (List.prefix_append (a :: v) w) hshort)
        rw [List.cons_append, search, search, if_neg hhead, if_neg hhead', ih hlt]

omit [DecidableEq α] in
/-- An occurrence of a word does not go over a letter that the word has not. -/
theorem infix_append_cons {u : List α} {a : α} (ha : a ∉ pat)
    (h : pat <:+: u ++ a :: v) : pat <:+: u ∨ pat <:+: v := by
  induction u with
  | nil =>
      rw [List.nil_append, List.infix_cons_iff] at h
      rcases h with hfront | hrest
      · cases pat with
        | nil => exact .inl (List.nil_infix)
        | cons b pat =>
            rw [List.cons_prefix_cons] at hfront
            exact absurd (hfront.1 ▸ List.mem_cons_self) ha
      · exact .inr hrest
  | cons b u ih =>
      rw [List.cons_append, List.infix_cons_iff] at h
      rcases h with hfront | hrest
      · have hfront' : pat <+: (b :: u) ++ a :: v := hfront
        by_cases hlength : pat.length ≤ (b :: u).length
        · exact .inl (List.prefix_of_prefix_length_le hfront' (List.prefix_append _ _)
            hlength).isInfix
        · have hover : (b :: u) ++ [a] <+: pat := by
            refine List.prefix_of_prefix_length_le ⟨v, by simp⟩ hfront' ?_
            rw [List.length_append, List.length_singleton]
            omega
          exact absurd (hover.subset (by simp)) ha
      · rcases ih hrest with hleft | hright
        · exact .inl (List.infix_cons hleft)
        · exact .inr hright

omit [DecidableEq α] in
/-- There is one way to cut a list at the first occurrence of a letter. -/
theorem append_cons_inj {a : α} {u u' : List α} (hu : a ∉ u) (hu' : a ∉ u')
    (h : u ++ a :: v = u' ++ a :: w) : u = u' ∧ v = w := by
  induction u generalizing u' with
  | nil =>
      cases u' with
      | nil => exact ⟨rfl, (List.cons.inj h).2⟩
      | cons b u' => exact absurd ((List.cons.inj h).1 ▸ List.mem_cons_self) hu'
  | cons b u ih =>
      cases u' with
      | nil => exact absurd ((List.cons.inj h).1 ▸ List.mem_cons_self) hu
      | cons b' u' =>
          obtain ⟨rfl, hrest⟩ := List.cons.inj h
          obtain ⟨rfl, hvw⟩ := ih (fun ha => hu (List.mem_cons_of_mem _ ha))
            (fun ha => hu' (List.mem_cons_of_mem _ ha)) hrest
          exact ⟨rfl, hvw⟩

end Search

/-! ## Extractors -/

/-- A rule that cuts one item off the front of a stream as soon as the item is complete. -/
structure Extractor (α β : Type*) where
  /-- The first item and what follows it. -/
  next : List α → Option (β × List α)
  shorter {s : List α} {x : β} {rest : List α} :
    next s = some (x, rest) → rest.length < s.length
  stable {s : List α} {x : β} {rest : List α} :
    next s = some (x, rest) → ∀ w, next (s ++ w) = some (x, rest ++ w)

namespace Extractor

variable (E : Extractor α β) {s rest : List α} {x : β}

/-- Take items as long as there is one: the items, and what is left. -/
def drain (s : List α) : List β × List α :=
  match _hnext : E.next s with
  | none => ([], s)
  | some (x, rest) => (x :: (drain rest).1, (drain rest).2)
termination_by s.length
decreasing_by all_goals exact E.shorter _hnext

theorem drain_of_none (h : E.next s = none) : E.drain s = ([], s) := by
  rw [drain]
  split
  · rfl
  · simp_all

theorem drain_of_some (h : E.next s = some (x, rest)) :
    E.drain s = (x :: (E.drain rest).1, (E.drain rest).2) := by
  rw [drain]
  split
  · simp_all
  · next y t hnext =>
      obtain ⟨rfl, rfl⟩ := Prod.mk.inj (Option.some.inj (h.symm.trans hnext))
      rfl

theorem next_drain (s : List α) : E.next (E.drain s).2 = none := by
  induction s using drain.induct E with
  | case1 s hnone => rwa [E.drain_of_none hnone]
  | case2 s x rest hsome ih => rwa [E.drain_of_some hsome]

/-- `Takes s xs rest`: taking items from `s`, the first ones are `xs`, and `rest` follows them. -/
inductive Takes : List α → List β → List α → Prop
  | nil (s : List α) : Takes s [] s
  | cons {s t rest : List α} {x : β} {xs : List β} :
      E.next s = some (x, t) → Takes t xs rest → Takes s (x :: xs) rest

variable {E} in
theorem Takes.drain_eq {xs : List β} (h : E.Takes s xs rest) :
    E.drain s = (xs ++ (E.drain rest).1, (E.drain rest).2) := by
  induction h with
  | nil s => rfl
  | cons hnext _ ih => rw [E.drain_of_some hnext, ih, List.cons_append]

variable {E} in
/-- More bytes at the end change nothing. -/
theorem Takes.append {xs : List β} (h : E.Takes s xs rest) (w : List α) :
    E.Takes (s ++ w) xs (rest ++ w) := by
  induction h with
  | nil s => exact .nil (s ++ w)
  | cons hnext _ ih => exact .cons (E.stable hnext w) ih

variable {E} in
/-- One more item. -/
theorem Takes.snoc {xs : List β} {t : List α} (h : E.Takes s xs rest)
    (hnext : E.next rest = some (x, t)) : E.Takes s (xs ++ [x]) t := by
  induction h with
  | nil s => exact .cons hnext (.nil t)
  | cons hfirst _ ih => exact .cons hfirst (ih hnext)

/-- The items up to the first one with a property. -/
theorem exists_takes_first {p : β → Prop} (h : ∃ x ∈ (E.drain s).1, p x) :
    ∃ xs x rest, E.Takes s (xs ++ [x]) rest ∧ (∀ y ∈ xs, ¬p y) ∧ p x := by
  induction s using drain.induct E with
  | case1 s hnone =>
      rw [E.drain_of_none hnone] at h
      obtain ⟨x, hx, -⟩ := h
      exact absurd hx List.not_mem_nil
  | case2 s x rest hsome ih =>
      by_cases hx : p x
      · exact ⟨[], x, rest, .cons hsome (.nil rest), fun _ hy => absurd hy List.not_mem_nil, hx⟩
      · rw [E.drain_of_some hsome] at h
        obtain ⟨y, hy, hp⟩ := h
        rcases List.mem_cons.mp hy with rfl | hy
        · exact absurd hp hx
        · obtain ⟨xs, z, rest', htakes, hxs, hz⟩ := ih ⟨y, hy, hp⟩
          refine ⟨x :: xs, z, rest', .cons hsome htakes, fun w hw => ?_, hz⟩
          rcases List.mem_cons.mp hw with rfl | hw
          · exact hx
          · exact hxs w hw

/-- Draining in two parts. -/
theorem drain_append (s w : List α) :
    E.drain (s ++ w) =
      ((E.drain s).1 ++ (E.drain ((E.drain s).2 ++ w)).1, (E.drain ((E.drain s).2 ++ w)).2) := by
  induction s using drain.induct E with
  | case1 s hnone => rw [E.drain_of_none hnone, List.nil_append]
  | case2 s x rest hsome ih =>
      rw [E.drain_of_some (E.stable hsome w), E.drain_of_some hsome, ih, List.cons_append]

/-- Append one chunk after the other, draining each time. -/
def feed : List α → List (List α) → List β × List α
  | rest, [] => ([], rest)
  | rest, chunk :: chunks =>
      ((E.drain (rest ++ chunk)).1 ++ (feed (E.drain (rest ++ chunk)).2 chunks).1,
        (feed (E.drain (rest ++ chunk)).2 chunks).2)

/-- **The items do not depend on the chunks.** -/
theorem feed_eq_drain (hrest : E.next rest = none) (chunks : List (List α)) :
    E.feed rest chunks = E.drain (rest ++ chunks.flatten) := by
  induction chunks generalizing rest with
  | nil => rw [feed, List.flatten_nil, List.append_nil, E.drain_of_none hrest]
  | cons chunk chunks ih =>
      rw [feed, ih (E.next_drain _), List.flatten_cons, ← List.append_assoc,
        E.drain_append (rest ++ chunk)]

end Extractor

/-! ## Items that end with a word -/

/-- `Pieces pat s ls rest`: the items `ls` are the pieces of `s` that successive leftmost
occurrences of `pat` end, and `rest`, which has no occurrence, is what follows them. -/
inductive Pieces (pat : List α) : List α → List (List α) → List α → Prop
  | rest {s : List α} : ¬pat <:+: s → Pieces pat s [] s
  | piece {s l t rest : List α} {ls : List (List α)} :
      s = l ++ pat ++ t → (∀ u, u ++ pat <+: s → l.length ≤ u.length) →
        Pieces pat t ls rest → Pieces pat s (l :: ls) rest

/-- The word is not in a piece. -/
theorem Pieces.not_infix {pat s : List α} {ls : List (List α)} {rest : List α} (hne : pat ≠ [])
    (h : Pieces pat s ls rest) : ∀ l ∈ ls, ¬pat <:+: l := by
  induction h with
  | rest => exact fun l hl => absurd hl List.not_mem_nil
  | piece heq hleft _ ih =>
      intro l' hl'
      rcases List.mem_cons.mp hl' with rfl | hlater
      · rintro ⟨u, v, rfl⟩
        have hpos := List.length_pos_iff.mpr hne
        have hle := hleft u (by simp [heq])
        simp only [List.length_append] at hle
        omega
      · exact ih l' hlater

/-- The pieces are determined by the stream. -/
theorem Pieces.unique {pat s : List α} {ls ls' : List (List α)} {rest rest' : List α}
    (h : Pieces pat s ls rest) (h' : Pieces pat s ls' rest') : ls = ls' ∧ rest = rest' := by
  induction h generalizing ls' rest' with
  | rest hnone =>
      cases h' with
      | rest => exact ⟨rfl, rfl⟩
      | piece heq => exact absurd ⟨_, _, heq.symm⟩ hnone
  | @piece s l t rest ls heq hleft hpieces ih =>
      cases h' with
      | rest hnone => exact absurd ⟨_, _, heq.symm⟩ hnone
      | @piece _ l' t' _ ls' heq' hleft' hpieces' =>
          have hle : l.length ≤ l'.length := hleft l' ⟨t', heq'.symm⟩
          have hge : l'.length ≤ l.length := hleft' l ⟨t, heq.symm⟩
          rw [heq, List.append_assoc, List.append_assoc] at heq'
          obtain ⟨rfl, htail⟩ := List.append_inj heq' (Nat.le_antisymm hle hge)
          obtain rfl := List.append_cancel_left htail
          obtain ⟨rfl, rfl⟩ := ih hpieces'
          exact ⟨rfl, rfl⟩

variable [DecidableEq α]

/-- The items before the leftmost occurrences of `pat`. -/
def delimited (pat : List α) (hne : pat ≠ []) : Extractor α (List α) where
  next s :=
    if search pat s < s.length then
      some (s.take (search pat s), s.drop (search pat s + pat.length))
    else none
  shorter {s x rest} h := by
    split_ifs at h with hfound
    obtain ⟨rfl, rfl⟩ := Prod.mk.inj (Option.some.inj h)
    have hpos : 0 < pat.length := List.length_pos_iff.mpr hne
    rw [List.length_drop]
    omega
  stable {s x rest} h w := by
    split_ifs at h with hfound
    obtain ⟨rfl, rfl⟩ := Prod.mk.inj (Option.some.inj h)
    have hfound' : search pat s < (s ++ w).length := by
      rw [List.length_append]
      omega
    have hoccurs := (prefix_drop_search hfound).length_le
    rw [List.length_drop] at hoccurs
    rw [search_append hfound, if_pos hfound', List.take_append_of_le_length hfound.le,
      List.drop_append_of_le_length (by omega)]

variable {pat : List α} {hne : pat ≠ []}

theorem delimited_next_eq_none {s : List α} :
    (delimited pat hne).next s = none ↔ search pat s = s.length := by
  have hle := search_le pat s
  simp only [delimited]
  split_ifs with hfound
  · simp [hfound.ne]
  · simp [Nat.le_antisymm hle (Nat.le_of_not_lt hfound)]

theorem delimited_next_eq_some {s l rest : List α} :
    (delimited pat hne).next s = some (l, rest) ↔ search pat s < s.length ∧
      l = s.take (search pat s) ∧ rest = s.drop (search pat s + pat.length) := by
  simp only [delimited]
  split_ifs with hfound
  · simp [hfound, eq_comm]
  · simp [hfound]

/-- What is taken from a stream are its pieces. -/
theorem pieces_drain (s : List α) :
    Pieces pat s ((delimited pat hne).drain s).1 ((delimited pat hne).drain s).2 := by
  induction s using Extractor.drain.induct (delimited pat hne) with
  | case1 s hnone =>
      rw [Extractor.drain_of_none _ hnone]
      exact .rest ((search_eq_length hne).mp (delimited_next_eq_none.mp hnone))
  | case2 s x rest hsome ih =>
      rw [Extractor.drain_of_some _ hsome]
      obtain ⟨hlt, rfl, rfl⟩ := delimited_next_eq_some.mp hsome
      refine .piece ?_ (fun u hu => ?_) ih
      · obtain ⟨t, ht⟩ := prefix_drop_search hlt
        have htail : s.drop (search pat s + pat.length) = t := by
          rw [← List.drop_drop, ← ht, List.drop_left]
        rw [htail, List.append_assoc, ht, List.take_append_drop]
      · rw [List.length_take]
        exact (Nat.min_le_left _ _).trans (search_le_of_occurs hu)

end Foundation
end Chaonet
