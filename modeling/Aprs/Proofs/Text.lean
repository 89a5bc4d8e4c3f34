import Aprs.Text.Blank
import Aprs.Text.Uppercase
import Mathlib.Data.List.TakeWhile

/-!
# Trimmed text and upper case

Trimming is done once: what is left does not begin or end with a blank (`trim_eq_self`), and blanks
behind a text make no difference to it (`trim_append_blanks`), such as those that pad it
(`trim_padding`). Upper-casing is done once too. A letter that
has an upper case is none of those that it is written with in upper case, and these are no blanks
(`upperChar_cases`), so

> `upper_upper`: text in upper case stays as it is,

and text that is trimmed stays so in upper case (`trim_upper`).
-/

namespace Aprs.Text

variable {c : Char} {s t : Text}

/-! ## Blanks -/

theorem trimEnd_append_blanks (h : ∀ c ∈ s, isBlank c = true) : trimEnd (t ++ s) = trimEnd t :=
  dropTrailing_append h

/-- Blanks behind a text are trimmed. -/
theorem trim_append_blanks (h : ∀ c ∈ s, isBlank c = true) : trim (t ++ s) = trim t := by
  have hs : s.dropWhile isBlank = [] := List.dropWhile_eq_nil_iff.mpr h
  unfold trim
  rw [List.dropWhile_append, hs]
  split
  · next hempty => rw [List.isEmpty_iff.mp hempty]
  · exact trimEnd_append_blanks h

/-- A text is trimmed if it does not begin or end with a blank. -/
theorem trim_eq_self (hfirst : ∀ c ∈ t.head?, isBlank c = false)
    (hlast : ∀ c ∈ t.getLast?, isBlank c = false) : trim t = t := by
  have hstart : t.dropWhile isBlank = t := by
    cases t with
    | nil => rfl
    | cons c rest =>
      have hc : isBlank c = false := hfirst c rfl
      exact List.dropWhile_cons_of_neg (by rw [hc]; exact Bool.false_ne_true)
  unfold trim trimEnd
  rw [hstart]
  exact dropTrailing_eq_self_iff.mpr hlast

/-- Trimming keeps what follows the blanks in front, up to the blanks at the end. -/
theorem trim_isPrefix (t : Text) : trim t <+: t.dropWhile isBlank := dropTrailing_isPrefix isBlank _

/-- What is left of a text does not begin with a blank. -/
theorem head?_trim : ∀ c ∈ (trim t).head?, isBlank c = false := by
  intro c hc
  obtain ⟨behind, hbehind⟩ := trim_isPrefix t
  have hfirst : (t.dropWhile isBlank).head? = some c := by
    rw [← hbehind, List.head?_append, Option.mem_def.mp hc]
    rfl
  have hnot := List.head?_dropWhile_not isBlank t
  rw [hfirst] at hnot
  exact hnot

/-- Nor does it end with one. -/
theorem getLast?_trim : ∀ c ∈ (trim t).getLast?, isBlank c = false := getLast?_dropTrailing

/-- Trimming twice trims no more. -/
theorem trim_trim (t : Text) : trim (trim t) = trim t := trim_eq_self head?_trim getLast?_trim

theorem trim_sublist (t : Text) : List.Sublist (trim t) t :=
  (trim_isPrefix t).sublist.trans (List.dropWhile_sublist isBlank)

/-! ## Padding -/

/-- The blanks that pad a text are trimmed. -/
theorem trim_padding (t : Text) (count : Nat) : trim (t ++ List.replicate count ' ') = trim t := by
  refine trim_append_blanks fun c hc => ?_
  rw [List.eq_of_mem_replicate hc]
  rfl

theorem le_length_padRight (width : Nat) (t : Text) : width ≤ (padRight width t).length := by
  rw [padRight, List.length_append, List.length_replicate]
  omega

theorem length_padRight {width : Nat} (h : t.length ≤ width) : (padRight width t).length = width := by
  rw [padRight, List.length_append, List.length_replicate]
  exact Nat.add_sub_cancel' h

/-! ## Upper case -/

/-- The code points that a run lists. -/
def CaseRun.points (run : CaseRun) : List Nat :=
  (List.range ((run.last - run.first) / run.stride + 1)).map fun k => run.first + run.stride * k

/-- A character that a run of the table covers is one of its points. -/
theorem CaseRun.mem_points {run : CaseRun} {n : Nat} (h : run.covers n = true) : n ∈ run.points := by
  unfold covers at h
  simp only [Bool.and_eq_true, decide_eq_true_eq, beq_iff_eq] at h
  obtain ⟨⟨hfirst, hlast⟩, hstride⟩ := h
  have hplace : (n - run.first) / run.stride ≤ (run.last - run.first) / run.stride :=
    Nat.div_le_div_right (Nat.sub_le_sub_right hlast _)
  refine List.mem_map.mpr ⟨(n - run.first) / run.stride, List.mem_range.mpr (by omega), ?_⟩
  have hdiv := Nat.div_add_mod (n - run.first) run.stride
  rw [hstride] at hdiv
  omega

/-- The code points of the letters that have an upper case. -/
def lowerPoints : List Nat := caseExpansions.map (·.1) ++ caseRuns.flatMap (·.points)

/-- The code points of what they are written with in upper case, and that of no character. -/
def upperPoints : List Nat :=
  0 :: caseExpansions.flatMap (·.2) ++
    caseRuns.flatMap fun run => run.points.map fun n => (Int.ofNat n + run.shift).toNat

/-- The code points of blanks. -/
def blankPoints : List Nat :=
  blanks.flatMap fun (low, high) => (List.range (high + 1 - low)).map (low + ·)

/-- A set of code points as the bits of a number. -/
def bits (points : List Nat) : Nat := points.foldr (fun n set => Nat.lor (Nat.shiftLeft 1 n) set) 0

/-- The points of a table are the bits of one number, so that a look-up is a test of a bit. -/
theorem testBit_bits {points : List Nat} {n : Nat} (h : n ∈ points) : (bits points).testBit n = true := by
  induction points with
  | nil => exact absurd h List.not_mem_nil
  | cons m rest ih =>
    show (1 <<< m ||| bits rest).testBit n = true
    rw [Nat.testBit_or]
    rcases List.mem_cons.mp h with rfl | hrest
    · simp
    · rw [ih hrest, Bool.or_true]

/-- Sets of code points without a common bit are apart. -/
theorem notMem_of_bits {s t : List Nat} (h : Nat.land (bits s) (bits t) = 0) {n : Nat} (hs : n ∈ s) :
    n ∉ t := by
  intro ht
  have hboth : (bits s &&& bits t).testBit n = true := by
    rw [Nat.testBit_and, testBit_bits hs, testBit_bits ht]
    rfl
  rw [show bits s &&& bits t = 0 from h, Nat.zero_testBit] at hboth
  exact Bool.false_ne_true hboth

/-- No letter that stands in an upper case has one itself, and none is a blank or a colon. -/
theorem upperPoints_apart :
    Nat.land (bits upperPoints) (bits (0x3A :: blankPoints ++ lowerPoints)) = 0 := by
  decide +kernel

/-- A character made of a point of the table is such a point, also where the number is no character. -/
theorem toNat_ofNat_mem {points : List Nat} {n : Nat} (hzero : 0 ∈ points) (h : n ∈ points) :
    (Char.ofNat n).toNat ∈ points := by
  unfold Char.ofNat
  by_cases hvalid : n.isValidChar
  · rw [dif_pos hvalid]
    exact h
  · rw [dif_neg hvalid]
    exact hzero

theorem isBlank_eq_false (h : c.toNat ∉ blankPoints) : isBlank c = false := by
  refine Bool.eq_false_iff.mpr fun hblank => h ?_
  obtain ⟨⟨low, high⟩, hrange, hbounds⟩ := List.any_eq_true.mp hblank
  simp only [Bool.and_eq_true, decide_eq_true_eq] at hbounds
  refine List.mem_flatMap.mpr ⟨(low, high), hrange, List.mem_map.mpr ⟨c.toNat - low, ?_, ?_⟩⟩
  · exact List.mem_range.mpr (by omega)
  · omega

/-- A character is its own upper case, or else it is listed as a letter, and so is what stands for it. -/
theorem upperChar_cases (c : Char) : upperChar c = [c] ∨
    upperChar c ≠ [] ∧ c.toNat ∈ lowerPoints ∧ ∀ d ∈ upperChar c, d.toNat ∈ upperPoints := by
  unfold upperChar
  split
  · next expansion hlookup =>
    obtain ⟨before, behind, hlist, -⟩ := List.lookup_eq_some_iff.mp hlookup
    have hmem : (c.toNat, expansion) ∈ caseExpansions := by
      rw [hlist]
      exact List.mem_append_right _ List.mem_cons_self
    have hsome : ∀ p ∈ caseExpansions, p.2 ≠ [] := by decide
    refine Or.inr ⟨mt List.map_eq_nil_iff.mp (hsome _ hmem), ?_, ?_⟩
    · exact List.mem_append_left _ (List.mem_map_of_mem hmem)
    · intro d hd
      obtain ⟨n, hn, rfl⟩ := List.mem_map.mp hd
      refine toNat_ofNat_mem List.mem_cons_self (List.mem_cons_of_mem _ (List.mem_append_left _ ?_))
      exact List.mem_flatMap.mpr ⟨_, hmem, hn⟩
  · split
    · next run hfind =>
      have hrun := List.mem_of_find?_eq_some hfind
      have hcovers : run.covers c.toNat = true := by
        have hfound := List.find?_some hfind
        exact hfound
      have hpoint := CaseRun.mem_points hcovers
      refine Or.inr ⟨List.cons_ne_nil _ _, ?_, ?_⟩
      · exact List.mem_append_right _ (List.mem_flatMap.mpr ⟨run, hrun, hpoint⟩)
      · intro d hd
        obtain rfl := List.mem_singleton.mp hd
        refine toNat_ofNat_mem List.mem_cons_self (List.mem_cons_of_mem _ (List.mem_append_right _ ?_))
        exact List.mem_flatMap.mpr ⟨run, hrun, List.mem_map_of_mem hpoint⟩
    · exact Or.inl rfl

theorem upperChar_ne_nil (c : Char) : upperChar c ≠ [] := by
  rcases upperChar_cases c with hself | ⟨hne, -⟩
  · rw [hself]
    exact List.cons_ne_nil c []
  · exact hne

/-- What stands for a letter in upper case is itself in upper case, and no blank or colon. -/
theorem upper_of_mem_upperPoints (h : c.toNat ∈ upperPoints) :
    upperChar c = [c] ∧ isBlank c = false ∧ c ≠ ':' := by
  have hapart := notMem_of_bits upperPoints_apart h
  refine ⟨?_, isBlank_eq_false fun hblank => hapart ?_, ?_⟩
  · refine (upperChar_cases c).resolve_right fun hlower => hapart ?_
    exact List.mem_cons_of_mem _ (List.mem_append_right _ hlower.2.1)
  · exact List.mem_cons_of_mem _ (List.mem_append_left _ hblank)
  · rintro rfl
    exact hapart List.mem_cons_self

/-- A character in upper case is the one that was there, or stands for a letter. -/
theorem mem_upperChar {d : Char} (h : d ∈ upperChar c) :
    upperChar d = [d] ∧ (d = c ∨ isBlank d = false ∧ d ≠ ':') := by
  rcases upperChar_cases c with hself | ⟨-, -, hpoints⟩
  · rw [hself] at h
    obtain rfl := List.mem_singleton.mp h
    exact ⟨hself, Or.inl rfl⟩
  · obtain ⟨hupper, hplain⟩ := upper_of_mem_upperPoints (hpoints d h)
    exact ⟨hupper, Or.inr hplain⟩

/-- **Text in upper case stays as it is.** -/
theorem upper_upper (t : Text) : upper (upper t) = upper t := by
  have hall : ∀ d ∈ upper t, upperChar d = [d] := by
    intro d hd
    obtain ⟨c, -, hc⟩ := List.mem_flatMap.mp hd
    exact (mem_upperChar hc).1
  generalize upper t = s at hall
  unfold upper
  induction s with
  | nil => rfl
  | cons d rest ih =>
    obtain ⟨hd, hrest⟩ := List.forall_mem_cons.mp hall
    rw [List.flatMap_cons, hd, ih hrest]
    rfl

/-- A colon in upper case was one before. -/
theorem colon_mem_of_upper (h : ':' ∈ upper t) : ':' ∈ t := by
  obtain ⟨c, hc, hcolon⟩ := List.mem_flatMap.mp h
  rcases (mem_upperChar hcolon).2 with heq | ⟨-, hne⟩
  · exact heq ▸ hc
  · exact absurd rfl hne

/-- No blank comes of the upper case of another character. -/
theorem not_isBlank_of_upperChar {d : Char} (hc : isBlank c = false) (h : d ∈ upperChar c) :
    isBlank d = false := by
  rcases (mem_upperChar h).2 with rfl | ⟨hd, -⟩
  · exact hc
  · exact hd

/-- **Trimmed text is trimmed in upper case.** -/
theorem trim_upper (h : trim t = t) : trim (upper t) = upper t := by
  have hfirst := head?_trim (t := t)
  have hlast := getLast?_trim (t := t)
  rw [h] at hfirst hlast
  refine trim_eq_self ?_ ?_
  · cases t with
    | nil => exact fun d hd => nomatch hd
    | cons c rest =>
      intro d hd
      rw [upper, List.flatMap_cons, List.head?_append, List.head?_eq_some_head (upperChar_ne_nil c),
        Option.some_or] at hd
      obtain rfl := Option.some.inj hd
      exact not_isBlank_of_upperChar (hfirst c rfl) (List.head_mem _)
  · rcases List.eq_nil_or_concat t with rfl | ⟨front, c, rfl⟩
    · exact fun d hd => nomatch hd
    · intro d hd
      rw [List.concat_eq_append] at hlast hd
      rw [upper, List.flatMap_append, List.flatMap_singleton, List.getLast?_append,
        List.getLast?_eq_some_getLast (upperChar_ne_nil c), Option.some_or] at hd
      obtain rfl := Option.some.inj hd
      exact not_isBlank_of_upperChar (hlast c List.getLast?_concat) (List.getLast_mem _)

end Aprs.Text
