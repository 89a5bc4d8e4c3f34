/-!
# Cutting lists at a mark

Packets are cut at marks: a line at `>` and `:`, a path at commas, a message body at its last
brace. The cuts are written once, for lists of any element, so that they serve bytes and
characters alike.

Nothing is lost by a cut: the parts with the mark between them are the list again
(`cutFirst_eq_some`, `cutLast_eq_some`), and a cut fails only where there is no mark
(`cutFirst_eq_none_iff`).
-/

namespace Aprs

/-- The parts before and after the first `mark`, if there is one. -/
def cutFirst {α : Type} [DecidableEq α] (mark : α) : List α → Option (List α × List α)
  | [] => none
  | x :: rest =>
    if x = mark then some ([], rest)
    else (cutFirst mark rest).map fun (before, after) => (x :: before, after)

/-- The parts before and after the last `mark`, if there is one. -/
def cutLast {α : Type} [DecidableEq α] (mark : α) : List α → Option (List α × List α)
  | [] => none
  | x :: rest =>
    match cutLast mark rest with
    | some (before, after) => some (x :: before, after)
    | none => if x = mark then some ([], rest) else none

/-- The pieces between the marks; a list without a mark is one piece. -/
def pieces {α : Type} [DecidableEq α] (mark : α) : List α → List (List α)
  | [] => [[]]
  | x :: rest =>
    if x = mark then [] :: pieces mark rest
    else
      match pieces mark rest with
      | [] => [[x]]
      | piece :: more => (x :: piece) :: more

/-- The list without the elements at its end that satisfy `p`. -/
def dropTrailing {α : Type} (p : α → Bool) (xs : List α) : List α :=
  (xs.reverse.dropWhile p).reverse

section Trailing

variable {α β : Type} {p : α → Bool} {xs ys : List α}

/-- Elements at the end that satisfy `p` make no difference. -/
theorem dropTrailing_append (h : ∀ y ∈ ys, p y = true) :
    dropTrailing p (xs ++ ys) = dropTrailing p xs := by
  unfold dropTrailing
  rw [List.reverse_append, List.dropWhile_append_of_pos]
  intro y hy
  exact h y (List.mem_reverse.mp hy)

/-- A list in which no element satisfies `p` stays as it is. -/
theorem dropTrailing_eq_self (h : ∀ x ∈ xs, p x = false) : dropTrailing p xs = xs := by
  unfold dropTrailing
  cases hrev : xs.reverse with
  | nil => rw [List.reverse_eq_nil_iff.mp hrev]; rfl
  | cons x rest =>
    -- the last element stays, and with it all before it
    have hx : p x = false := h x (List.mem_reverse.mp (hrev ▸ List.mem_cons_self))
    rw [List.dropWhile_cons_of_neg (by rw [hx]; exact Bool.false_ne_true), ← hrev,
      List.reverse_reverse]

/-- Nothing is dropped exactly if the last element stays. -/
theorem dropTrailing_eq_self_iff : dropTrailing p xs = xs ↔ ∀ x ∈ xs.getLast?, p x = false := by
  unfold dropTrailing
  rw [List.getLast?_eq_head?_reverse, List.reverse_eq_iff]
  cases xs.reverse with
  | nil => simp
  | cons last rest =>
    cases hlast : p last with
    | true =>
      -- the rest is shorter than the list
      have hshorter : rest.dropWhile p ≠ last :: rest := by
        intro heq
        have hlength := (List.dropWhile_sublist (l := rest) p).length_le
        rw [heq, List.length_cons] at hlength
        omega
      simp [hshorter, hlast]
    | false => simp [hlast]

/-- What is left ends with an element that stays. -/
theorem getLast?_dropTrailing : ∀ x ∈ (dropTrailing p xs).getLast?, p x = false := by
  intro x hx
  unfold dropTrailing at hx
  rw [List.getLast?_reverse] at hx
  have hnot := List.head?_dropWhile_not p xs.reverse
  rw [Option.mem_def.mp hx] at hnot
  exact hnot

theorem dropTrailing_isPrefix (p : α → Bool) (xs : List α) : dropTrailing p xs <+: xs := by
  have hfront := List.reverse_prefix.mpr (List.dropWhile_suffix p (l := xs.reverse))
  rw [List.reverse_reverse] at hfront
  exact hfront

theorem dropTrailing_map (f : β → α) (xs : List β) :
    dropTrailing p (xs.map f) = (dropTrailing (p ∘ f) xs).map f := by
  unfold dropTrailing
  rw [← List.map_reverse, List.dropWhile_map, List.map_reverse]

end Trailing

section Laws

variable {α : Type} [DecidableEq α] {mark : α} {xs before after : List α}

/-- The first mark stands between the two parts, and the part before it holds none. -/
theorem cutFirst_eq_some (h : cutFirst mark xs = some (before, after)) :
    xs = before ++ mark :: after ∧ mark ∉ before := by
  induction xs generalizing before with
  | nil => simp [cutFirst] at h
  | cons x rest ih =>
    by_cases hx : x = mark
    · simp only [cutFirst, hx, if_true, Option.some.injEq, Prod.mk.injEq] at h
      obtain ⟨rfl, rfl⟩ := h
      simp [hx]
    · simp only [cutFirst, hx, if_false, Option.map_eq_some_iff, Prod.mk.injEq] at h
      obtain ⟨⟨b, a⟩, hcut, rfl, rfl⟩ := h
      obtain ⟨rfl, hb⟩ := ih hcut
      exact ⟨rfl, by simp [hb, Ne.symm hx]⟩

/-- A cut at the first mark fails exactly where there is no mark. -/
theorem cutFirst_eq_none_iff : cutFirst mark xs = none ↔ mark ∉ xs := by
  induction xs with
  | nil => simp [cutFirst]
  | cons x rest ih =>
    by_cases hx : x = mark
    · simp [cutFirst, hx]
    · simp [cutFirst, hx, ih, Ne.symm hx]

/-- A mark behind a part without one is the first. -/
theorem cutFirst_append (h : mark ∉ before) :
    cutFirst mark (before ++ mark :: after) = some (before, after) := by
  induction before with
  | nil => simp [cutFirst]
  | cons x rest ih =>
    have hx : x ≠ mark := fun e => h (by simp [e])
    have hrest : mark ∉ rest := fun e => h (by simp [e])
    simp [cutFirst, hx, ih hrest]

/-- A search for a mark behind a part without one ends at it. -/
theorem dropWhile_ne_append (h : mark ∉ before) :
    (before ++ mark :: after).dropWhile (· ≠ mark) = mark :: after := by
  rw [List.dropWhile_append_of_pos, List.dropWhile_cons_of_neg (by simp)]
  intro x hx
  exact decide_eq_true fun heq => h (heq ▸ hx)

/-- A cut at the last mark fails exactly where there is no mark. -/
theorem cutLast_eq_none_iff : cutLast mark xs = none ↔ mark ∉ xs := by
  induction xs with
  | nil => simp [cutLast]
  | cons x rest ih =>
    cases hc : cutLast mark rest with
    | some p =>
      have : mark ∈ rest := Decidable.byContradiction fun hn => by simp [ih.2 hn] at hc
      simp [cutLast, hc, this]
    | none =>
      have hr := ih.1 hc
      by_cases hx : x = mark
      · simp [cutLast, hc, hx]
      · simp [cutLast, hc, hx, hr, Ne.symm hx]

/-- The last mark stands between the two parts, and the part after it holds none. -/
theorem cutLast_eq_some (h : cutLast mark xs = some (before, after)) :
    xs = before ++ mark :: after ∧ mark ∉ after := by
  induction xs generalizing before with
  | nil => simp [cutLast] at h
  | cons x rest ih =>
    cases hc : cutLast mark rest with
    | some p =>
      simp only [cutLast, hc, Option.some.injEq, Prod.mk.injEq] at h
      obtain ⟨rfl, rfl⟩ := h
      obtain ⟨e, ha⟩ := ih hc
      exact ⟨by rw [List.cons_append, ← e], ha⟩
    | none =>
      by_cases hx : x = mark
      · simp only [cutLast, hc, hx, if_true, Option.some.injEq, Prod.mk.injEq] at h
        obtain ⟨rfl, rfl⟩ := h
        exact ⟨by simp [hx], cutLast_eq_none_iff.1 hc⟩
      · simp [cutLast, hc, hx] at h

/-- The first mark is where a search for it ends. -/
theorem cutFirst_eq_findIdx? :
    cutFirst mark xs = (xs.findIdx? (· = mark)).map fun i => (xs.take i, xs.drop (i + 1)) := by
  induction xs with
  | nil => rfl
  | cons x rest ih =>
    rw [cutFirst, List.findIdx?_cons]
    by_cases hx : x = mark
    · rw [if_pos hx, if_pos (decide_eq_true hx)]
      rfl
    · rw [if_neg hx, if_neg (by simpa using hx), ih]
      cases rest.findIdx? (· = mark) <;> rfl

/-- A list has at least one piece. -/
theorem pieces_ne_nil : pieces mark xs ≠ [] := by
  cases xs with
  | nil => simp [pieces]
  | cons x rest =>
    unfold pieces
    split
    · simp
    · split <;> simp

/-- A list without a mark is one piece. -/
theorem pieces_of_notMem (h : mark ∉ xs) : pieces mark xs = [xs] := by
  induction xs with
  | nil => rfl
  | cons x rest ih =>
    obtain ⟨hx, hrest⟩ := not_or.mp (mt List.mem_cons.mpr h)
    rw [pieces, if_neg (Ne.symm hx), ih hrest]

/-- The part before the first mark is the first piece. -/
theorem pieces_append (h : mark ∉ before) :
    pieces mark (before ++ mark :: after) = before :: pieces mark after := by
  induction before with
  | nil => exact if_pos rfl
  | cons x rest ih =>
    obtain ⟨hx, hrest⟩ := not_or.mp (mt List.mem_cons.mpr h)
    rw [List.cons_append, pieces, if_neg (Ne.symm hx), ih hrest]

/-- Parts without a mark that stand between marks are the pieces. -/
theorem pieces_flatMap {piece : List α} {more : List (List α)} (h : mark ∉ piece)
    (hmore : ∀ p ∈ more, mark ∉ p) :
    pieces mark (piece ++ more.flatMap (mark :: ·)) = piece :: more := by
  induction more generalizing piece with
  | nil =>
    rw [List.flatMap_nil, List.append_nil]
    exact pieces_of_notMem h
  | cons next more ih =>
    obtain ⟨hnext, hmore⟩ := List.forall_mem_cons.mp hmore
    rw [List.flatMap_cons, List.cons_append, pieces_append h, ih hnext hmore]

/-- The pieces with marks between them are the list again, and none of them holds a mark. -/
theorem exists_pieces (mark : α) (xs : List α) :
    ∃ piece more, pieces mark xs = piece :: more ∧ xs = piece ++ more.flatMap (mark :: ·) ∧
      mark ∉ piece ∧ ∀ p ∈ more, mark ∉ p := by
  induction xs with
  | nil => exact ⟨[], [], rfl, rfl, List.not_mem_nil, fun p hp => absurd hp List.not_mem_nil⟩
  | cons x rest ih =>
    obtain ⟨piece, more, hpieces, hrest, hpiece, hmore⟩ := ih
    by_cases hx : x = mark
    · refine ⟨[], piece :: more, ?_, ?_, List.not_mem_nil, List.forall_mem_cons.mpr ⟨hpiece, hmore⟩⟩
      · rw [pieces, if_pos hx, hpieces]
      · rw [hx, hrest]
        rfl
    · refine ⟨x :: piece, more, ?_, by rw [hrest]; rfl, ?_, hmore⟩
      · rw [pieces, if_neg hx, hpieces]
      · intro hmem
        rcases List.mem_cons.mp hmem with heq | hmem
        · exact hx heq.symm
        · exact hpiece hmem

end Laws

section Selection

variable {α : Type} {p : α → Bool} {f : α → α} {mark : α} {xs before after : List α}

/-- Selecting and changing elements leaves a list as it is exactly if it leaves out none and changes
none. -/
theorem map_filter_eq_self_iff : (xs.filter p).map f = xs ↔ ∀ x ∈ xs, p x = true ∧ f x = x := by
  constructor
  · intro h
    have hlength : (xs.filter p).length = xs.length := by
      rw [← List.length_map (f := f), h]
    have hfilter : xs.filter p = xs := List.filter_sublist.eq_of_length hlength
    rw [hfilter, List.map_eq_iff] at h
    intro x hx
    obtain ⟨i, hi⟩ := List.mem_iff_getElem?.mp hx
    have hsame := h i
    rw [hi] at hsame
    exact ⟨List.filter_eq_self.mp hfilter x hx, (Option.some.inj hsame).symm⟩
  · intro h
    rw [List.filter_eq_self.mpr fun x hx => (h x hx).1]
    exact (List.map_congr_left fun x hx => (h x hx).2).trans (List.map_id xs)

/-- A list begins with a mark exactly if there is nothing before the first one. -/
theorem head?_append_eq_mark_iff (h : mark ∉ before) :
    (before ++ mark :: after).head? = some mark ↔ before = [] := by
  cases before with
  | nil => simp
  | cons x rest =>
    have hx : x ≠ mark := fun heq => h (heq ▸ List.mem_cons_self)
    simp [hx]

end Selection

end Aprs
