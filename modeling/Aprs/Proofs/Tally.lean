import Aprs.Proofs.Payload.Consistency
import Aprs.Tally

/-!
# What a tally counts

The counts of a tally stand in the order of their keys, none of them is zero, and so they are determined by
what they say of each key (`Counts.WellFormed.ext`). One more packet or one more line that cannot be framed
keeps a tally the account of what it was made from (`Tally.Accounts.add`), and every tally is therefore the
account of its lines (`Tally.ofPackets_accounts`). The rest follows from the account alone: the totals of two
batches add up (`Tally.Accounts.append`), and an order of the lines that is another one changes nothing
(`Tally.Accounts.eq_of_perm`).

Specification: 13 (Tools).
-/

namespace Aprs

/-! ## Counts by key -/

namespace Counts

variable {κ : Type} {rank : κ → Nat} {key k : κ} {counts others : Counts κ} {entry : κ × Nat}

/-- Counts in the order of their keys, none of which is zero. -/
structure WellFormed (rank : κ → Nat) (counts : Counts κ) : Prop where
  ordered : counts.Pairwise fun a b => rank a.1 < rank b.1
  positive : ∀ entry ∈ counts, 0 < entry.2

theorem WellFormed.nil : WellFormed rank [] := ⟨List.Pairwise.nil, List.forall_mem_nil _⟩

/-- Counts are well formed if the first key is the least, its count is not zero, and the others are well
formed. -/
theorem wellFormed_cons :
    WellFormed rank (entry :: counts) ↔
      (∀ other ∈ counts, rank entry.1 < rank other.1) ∧ 0 < entry.2 ∧ WellFormed rank counts := by
  constructor
  · intro h
    obtain ⟨hfirst, hrest⟩ := List.pairwise_cons.mp h.ordered
    obtain ⟨hentry, hcounts⟩ := List.forall_mem_cons.mp h.positive
    exact ⟨hfirst, hentry, hrest, hcounts⟩
  · intro ⟨hfirst, hentry, hrest⟩
    exact ⟨List.pairwise_cons.mpr ⟨hfirst, hrest.ordered⟩,
      List.forall_mem_cons.mpr ⟨hentry, hrest.positive⟩⟩

/-- A key that is counted once more is the only one that may be new. -/
theorem rank_of_mem_add (h : entry ∈ counts.add rank key) :
    rank entry.1 = rank key ∨ ∃ other ∈ counts, rank entry.1 = rank other.1 := by
  induction counts with
  | nil => exact .inl (by rw [List.mem_singleton.mp h])
  | cons first rest ih =>
    obtain ⟨k, n⟩ := first
    unfold add at h
    split at h
    · rcases List.mem_cons.mp h with rfl | h
      · exact .inl rfl
      · exact .inr ⟨_, h, rfl⟩
    split at h
    · rcases List.mem_cons.mp h with rfl | h
      · exact .inr ⟨_, List.mem_cons_self, rfl⟩
      · exact .inr ⟨_, List.mem_cons_of_mem _ h, rfl⟩
    · rcases List.mem_cons.mp h with rfl | h
      · exact .inr ⟨_, List.mem_cons_self, rfl⟩
      · refine (ih h).imp_right fun ⟨other, hother, hrank⟩ => ?_
        exact ⟨other, List.mem_cons_of_mem _ hother, hrank⟩

/-- Counting keeps them so. -/
theorem WellFormed.add (h : WellFormed rank counts) (key : κ) :
    WellFormed rank (counts.add rank key) := by
  induction counts with
  | nil => exact wellFormed_cons.mpr ⟨List.forall_mem_nil _, Nat.one_pos, .nil⟩
  | cons first rest ih =>
    obtain ⟨k, n⟩ := first
    obtain ⟨hfirst, hpositive, hrest⟩ := wellFormed_cons.mp h
    unfold Counts.add
    split
    · next hlt =>
      refine wellFormed_cons.mpr ⟨List.forall_mem_cons.mpr ⟨hlt, ?_⟩, Nat.one_pos, h⟩
      exact fun other hother => Nat.lt_trans hlt (hfirst other hother)
    split
    · exact wellFormed_cons.mpr ⟨hfirst, Nat.succ_pos n, hrest⟩
    · next hlt hne =>
      refine wellFormed_cons.mpr ⟨fun other hother => ?_, hpositive, ih hrest⟩
      rcases rank_of_mem_add hother with hkey | ⟨entry, hentry, hsame⟩
      · rw [hkey]
        exact Nat.lt_of_le_of_ne (Nat.not_lt.mp hlt) (Ne.symm hne)
      · rw [hsame]
        exact hfirst entry hentry

theorem total_cons (entry : κ × Nat) (counts : Counts κ) :
    total (entry :: counts) = entry.2 + total counts := rfl

/-- Whatever the key is, the sum is greater by one. -/
theorem total_add (rank : κ → Nat) (key : κ) (counts : Counts κ) :
    (counts.add rank key).total = counts.total + 1 := by
  induction counts with
  | nil => rfl
  | cons first rest ih =>
    obtain ⟨k, n⟩ := first
    unfold add
    split
    · rw [total_cons, Nat.add_comm]
    split
    · simp only [total_cons]
      omega
    · rw [total_cons, ih, total_cons, Nat.add_assoc]

variable [DecidableEq κ]

theorem count_cons (entry : κ × Nat) (counts : Counts κ) (key : κ) :
    count (entry :: counts) key = if key = entry.1 then entry.2 else count counts key := by
  unfold count
  rw [List.lookup_cons]
  by_cases h : key = entry.1
  · rw [if_pos h, beq_iff_eq.mpr h]
    rfl
  · rw [if_neg h, beq_eq_false_iff_ne.mpr h]

/-- A key that goes before all others has no count. -/
theorem count_of_lt (h : ∀ entry ∈ counts, rank key < rank entry.1) : counts.count key = 0 := by
  induction counts with
  | nil => rfl
  | cons first rest ih =>
    obtain ⟨hfirst, hrest⟩ := List.forall_mem_cons.mp h
    have hne : key ≠ first.1 := fun heq => Nat.ne_of_lt hfirst (congrArg rank heq)
    rw [count_cons, if_neg hne, ih hrest]

/-- The count of the key is greater by one, and that of any other key is the same. -/
theorem WellFormed.count_add (hrank : Function.Injective rank) (h : WellFormed rank counts)
    (key k : κ) : (counts.add rank key).count k = counts.count k + if key = k then 1 else 0 := by
  induction counts with
  | nil =>
    rw [Counts.add, count_cons]
    by_cases hk : key = k
    · rw [if_pos hk.symm, if_pos hk]
      rfl
    · rw [if_neg (Ne.symm hk), if_neg hk]
      rfl
  | cons first rest ih =>
    obtain ⟨j, n⟩ := first
    obtain ⟨hfirst, -, hrest⟩ := wellFormed_cons.mp h
    unfold Counts.add
    split
    · next hlt =>
      have hzero : count ((j, n) :: rest) key = 0 :=
        count_of_lt (List.forall_mem_cons.mpr
          ⟨hlt, fun other hother => Nat.lt_trans hlt (hfirst other hother)⟩)
      rw [count_cons]
      by_cases hk : key = k
      · rw [if_pos hk, if_pos hk.symm, ← hk, hzero]
      · rw [if_neg hk, if_neg (Ne.symm hk)]
        rfl
    split
    · next hsame =>
      obtain rfl := hrank hsame
      rw [count_cons, count_cons]
      by_cases hk : key = k
      · rw [if_pos hk.symm, if_pos hk.symm, if_pos hk]
      · rw [if_neg (Ne.symm hk), if_neg (Ne.symm hk), if_neg hk]
        rfl
    · next hne =>
      rw [count_cons, count_cons, ih hrest]
      by_cases hk : k = j
      · have hkey : ¬ key = k := fun heq => hne (congrArg rank (heq.trans hk))
        rw [if_pos hk, if_pos hk, if_neg hkey]
        rfl
      · rw [if_neg hk, if_neg hk]

/-- What stands in counts is what they say of its key. -/
theorem WellFormed.mem_iff (h : WellFormed rank counts) :
    entry ∈ counts ↔ counts.count entry.1 = entry.2 ∧ 0 < entry.2 := by
  induction counts with
  | nil =>
    exact iff_of_false List.not_mem_nil fun ⟨hzero, hpositive⟩ => Nat.ne_of_lt hpositive hzero
  | cons first rest ih =>
    obtain ⟨hfirst, hpositive, hrest⟩ := wellFormed_cons.mp h
    rw [List.mem_cons, count_cons, ih hrest]
    by_cases hkey : entry.1 = first.1
    · have hzero : count rest entry.1 = 0 := by
        rw [hkey]
        exact count_of_lt hfirst
      rw [if_pos hkey, hzero]
      constructor
      · intro hmem
        rcases hmem with rfl | ⟨hcount, hpos⟩
        · exact ⟨rfl, hpositive⟩
        · exact absurd hcount (Nat.ne_of_lt hpos)
      · exact fun hcount => .inl (Prod.ext hkey hcount.1.symm)
    · have hne : entry ≠ first := fun heq => hkey (congrArg Prod.fst heq)
      rw [if_neg hkey]
      exact ⟨fun hmem => hmem.resolve_left hne, .inr⟩

/-- Counts are determined by what they say of each key. -/
theorem WellFormed.ext (h : WellFormed rank counts) (h' : WellFormed rank others)
    (hcount : ∀ key, counts.count key = others.count key) : counts = others := by
  have hne (a b : κ × Nat) (hlt : rank a.1 < rank b.1) : a ≠ b := by
    intro heq
    rw [heq] at hlt
    exact Nat.lt_irrefl _ hlt
  have hnodup {counts : Counts κ} (h : WellFormed rank counts) : counts.Nodup :=
    h.ordered.imp (hne _ _)
  have hperm : counts.Perm others :=
    (List.perm_ext_iff_of_nodup (hnodup h) (hnodup h')).mpr fun entry => by
      rw [h.mem_iff, h'.mem_iff, hcount]
  exact hperm.eq_of_pairwise
    (fun a b _ _ hlt hgt => absurd hgt (Nat.lt_asymm hlt)) h.ordered h'.ordered

end Counts

/-! ## Accounts of lines -/

namespace Tally

variable {α ε : Type} {t u : Tally} {results others : List (Except ε (Packet α))}

/-- What a line gives is a packet of which something holds. -/
def isPacketWith (p : Packet α → Bool) : Except ε (Packet α) → Bool
  | .ok packet => p packet
  | .error _ => false

/-- A line cannot be framed. -/
def isRejected : Except ε (Packet α) → Bool
  | .ok _ => false
  | .error _ => true

/-- The totals of a tally are those over what lines gave: how many there were and how many gave no packet,
how many packets had a fault, and how many there were of each kind and with each identifier. -/
structure Accounts (t : Tally) (results : List (Except ε (Packet α))) : Prop where
  lines_eq_length : t.lines = results.length
  rejected_eq : t.rejected = results.countP isRejected
  faulted_eq : t.faulted = results.countP (isPacketWith fun p => p.payload.hasFault)
  lines_eq_add : t.lines = t.rejected + t.byKind.total
  total_eq : t.byKind.total = t.byIdentifier.total
  faulted_le : t.faulted ≤ t.byKind.total
  kinds : t.byKind.WellFormed Kind.rank
  identifiers : t.byIdentifier.WellFormed UInt8.toNat
  byKind : ∀ kind, t.byKind.count kind =
    results.countP (isPacketWith fun p => p.payload.kind = kind)
  byIdentifier : ∀ identifier, t.byIdentifier.count identifier =
    results.countP (isPacketWith fun p => p.payload.identifier = identifier)

theorem empty_accounts : empty.Accounts ([] : List (Except ε (Packet α))) :=
  ⟨rfl, rfl, rfl, rfl, rfl, Nat.le_refl 0, .nil, .nil, fun _ => rfl, fun _ => rfl⟩

/-- **Recording a packet keeps the account.** -/
theorem Accounts.record (h : t.Accounts results) (p : Packet α) :
    (t.record p).Accounts (results ++ [.ok p]) where
  lines_eq_length := by
    show t.lines + 1 = _
    rw [h.lines_eq_length, List.length_append]
    rfl
  rejected_eq := by
    rw [List.countP_append, ← h.rejected_eq]
    rfl
  faulted_eq := by
    rw [List.countP_append, ← h.faulted_eq, List.countP_singleton]
    show (if p.payload.hasFault then t.faulted + 1 else t.faulted) = t.faulted + _
    cases hfault : p.payload.hasFault <;> simp [isPacketWith, hfault]
  lines_eq_add := by
    show t.lines + 1 = t.rejected + (t.byKind.add Kind.rank p.payload.kind).total
    rw [Counts.total_add, h.lines_eq_add, Nat.add_assoc]
  total_eq := by
    show (t.byKind.add _ _).total = (t.byIdentifier.add _ _).total
    rw [Counts.total_add, Counts.total_add, h.total_eq]
  faulted_le := by
    have hle := h.faulted_le
    show (if p.payload.hasFault then t.faulted + 1 else t.faulted) ≤ (t.byKind.add _ _).total
    rw [Counts.total_add]
    split <;> omega
  kinds := h.kinds.add _
  identifiers := h.identifiers.add _
  byKind := by
    intro kind
    rw [List.countP_append, ← h.byKind, List.countP_singleton]
    show (t.byKind.add Kind.rank p.payload.kind).count kind = _
    rw [h.kinds.count_add Kind.rank_injective]
    simp [isPacketWith]
  byIdentifier := by
    intro identifier
    rw [List.countP_append, ← h.byIdentifier, List.countP_singleton]
    show (t.byIdentifier.add UInt8.toNat p.payload.identifier).count identifier = _
    rw [h.identifiers.count_add fun _ _ => UInt8.toNat_inj.mp]
    simp [isPacketWith]

/-- **So does rejecting a line.** -/
theorem Accounts.reject (h : t.Accounts results) (cause : ε) :
    t.reject.Accounts (results ++ [.error cause] : List (Except ε (Packet α))) where
  lines_eq_length := by
    show t.lines + 1 = _
    rw [h.lines_eq_length, List.length_append]
    rfl
  rejected_eq := by
    rw [List.countP_append, ← h.rejected_eq]
    rfl
  faulted_eq := by
    rw [List.countP_append, ← h.faulted_eq]
    rfl
  lines_eq_add := by
    show t.lines + 1 = t.rejected + 1 + t.byKind.total
    rw [h.lines_eq_add, Nat.add_right_comm]
  total_eq := h.total_eq
  faulted_le := h.faulted_le
  kinds := h.kinds
  identifiers := h.identifiers
  byKind := by
    intro kind
    rw [List.countP_append, ← h.byKind]
    rfl
  byIdentifier := by
    intro identifier
    rw [List.countP_append, ← h.byIdentifier]
    rfl

/-- One more line keeps a tally the account of its lines. -/
theorem Accounts.add (h : t.Accounts results) (result : Except ε (Packet α)) :
    (t.add result).Accounts (results ++ [result]) := by
  cases result with
  | ok p => exact h.record p
  | error cause => exact h.reject cause

/-- More lines keep a tally the account of its lines. -/
theorem Accounts.foldl (h : t.Accounts results) (others : List (Except ε (Packet α))) :
    (others.foldl Tally.add t).Accounts (results ++ others) := by
  induction others generalizing t results with
  | nil =>
    rw [List.append_nil]
    exact h
  | cons result others ih =>
    rw [List.append_cons]
    exact ih (h.add result)

/-- **A tally is the account of its lines.** -/
theorem ofPackets_accounts (results : List (Except ε (Packet α))) :
    (ofPackets results).Accounts results := empty_accounts.foldl results

/-! ## Orders and batches -/

/-- Lines in another order have the same account, and no other. -/
theorem Accounts.eq_of_perm (h : t.Accounts results) (h' : u.Accounts others)
    (hperm : results.Perm others) : t = u := by
  have hkinds : t.byKind = u.byKind :=
    h.kinds.ext h'.kinds fun kind => by rw [h.byKind, h'.byKind, hperm.countP_eq]
  have hidentifiers : t.byIdentifier = u.byIdentifier :=
    h.identifiers.ext h'.identifiers fun identifier => by
      rw [h.byIdentifier, h'.byIdentifier, hperm.countP_eq]
  have hlines : t.lines = u.lines := by
    rw [h.lines_eq_length, h'.lines_eq_length, hperm.length_eq]
  have hrejected : t.rejected = u.rejected := by
    rw [h.rejected_eq, h'.rejected_eq, hperm.countP_eq]
  have hfaulted : t.faulted = u.faulted := by
    rw [h.faulted_eq, h'.faulted_eq, hperm.countP_eq]
  cases t
  cases u
  exact (mk.injEq ..).mpr ⟨hlines, hrejected, hfaulted, hkinds, hidentifiers⟩

/-- The totals of a tally are the sums of those of two others. -/
structure IsSum (whole first second : Tally) : Prop where
  lines : whole.lines = first.lines + second.lines
  rejected : whole.rejected = first.rejected + second.rejected
  faulted : whole.faulted = first.faulted + second.faulted
  byKind : ∀ kind, whole.byKind.count kind = first.byKind.count kind + second.byKind.count kind
  byIdentifier : ∀ identifier, whole.byIdentifier.count identifier =
    first.byIdentifier.count identifier + second.byIdentifier.count identifier

/-- The account of two batches one behind the other is the sum of their accounts. -/
theorem Accounts.append {whole : Tally} (h : t.Accounts results) (h' : u.Accounts others)
    (hwhole : whole.Accounts (results ++ others)) : whole.IsSum t u where
  lines := by rw [hwhole.lines_eq_length, List.length_append, h.lines_eq_length, h'.lines_eq_length]
  rejected := by rw [hwhole.rejected_eq, List.countP_append, h.rejected_eq, h'.rejected_eq]
  faulted := by rw [hwhole.faulted_eq, List.countP_append, h.faulted_eq, h'.faulted_eq]
  byKind kind := by rw [hwhole.byKind, List.countP_append, h.byKind, h'.byKind]
  byIdentifier identifier := by
    rw [hwhole.byIdentifier, List.countP_append, h.byIdentifier, h'.byIdentifier]

end Tally

end Aprs
