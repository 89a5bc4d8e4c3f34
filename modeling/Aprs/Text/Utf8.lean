import Aprs.Text

/-!
# UTF-8

An automaton reads octets: an octet completes a character, opens or continues one, or cannot stand
where it stands. `scan` gives the reading octet by octet, one entry for each character and one for
each longest piece that begins no character. The lossy reading puts the replacement character for
each such piece, and the strict reading fails if there is one.
-/

namespace Aprs.Utf8

/-- The octets of a text. -/
def encode (t : Text) : Bytes := t.flatMap String.utf8EncodeChar

/-- A character under way: the bits read so far, how many octets are missing, and the interval in
which the next of them lies. -/
structure Pending where
  bits : Nat
  missing : Nat
  low : Nat
  high : Nat

/-- What an octet does. -/
inductive Effect
  | completes (c : Char)
  | awaits (p : Pending)
  | stray

/-- The effect of an octet where a character begins. The narrowed intervals exclude overlong forms,
surrogates and code points above `10FFFF`. -/
def first (b : UInt8) : Effect :=
  let n := b.toNat
  if n < 0x80 then .completes (Char.ofNat n)
  else if n < 0xC2 then .stray
  else if n < 0xE0 then .awaits ⟨n - 0xC0, 1, 0x80, 0xBF⟩
  else if n < 0xF0 then
    .awaits ⟨n - 0xE0, 2, if n = 0xE0 then 0xA0 else 0x80, if n = 0xED then 0x9F else 0xBF⟩
  else if n < 0xF5 then
    .awaits ⟨n - 0xF0, 3, if n = 0xF0 then 0x90 else 0x80, if n = 0xF4 then 0x8F else 0xBF⟩
  else .stray

/-- The effect of an octet behind the opening of a character. -/
def Pending.next (p : Pending) (b : UInt8) : Effect :=
  let n := b.toNat
  if p.low ≤ n ∧ n ≤ p.high then
    let bits := p.bits * 64 + (n - 0x80)
    if p.missing ≤ 1 then .completes (Char.ofNat bits)
    else .awaits ⟨bits, p.missing - 1, 0x80, 0xBF⟩
  else .stray

/-- The entries that an octet adds where a character begins, and the character then under way. -/
def opening (b : UInt8) : List (Option Char) × Option Pending :=
  match first b with
  | .completes c => ([some c], none)
  | .awaits p => ([], some p)
  | .stray => ([none], none)

/-- The entries that an octet adds, and the character then under way. An octet that cannot continue
a character ends a piece that is none, and stands for itself. -/
def step (state : Option Pending) (b : UInt8) : List (Option Char) × Option Pending :=
  match state with
  | none => opening b
  | some p =>
    match p.next b with
    | .completes c => ([some c], none)
    | .awaits q => ([], some q)
    | .stray => (none :: (opening b).1, (opening b).2)

/-- The reading of octets, `none` for each longest piece that begins no character. -/
def scan : Option Pending → Bytes → List (Option Char)
  | none, [] => []
  | some _, [] => [none]
  | state, b :: rest => (step state b).1 ++ scan (step state b).2 rest

/-- Stands for octets that are no character. -/
def replacement : Char := '\uFFFD'

/-- The text of octets, with the replacement character for each piece that is none. -/
def lossy (bytes : Bytes) : Text := (scan none bytes).map (·.getD replacement)

/-- The text of octets, if they are well formed throughout. -/
def decode? (bytes : Bytes) : Option Text := (scan none bytes).mapM id

/-- The effect of an octet behind what is under way. -/
def effect (state : Option Pending) (b : UInt8) : Effect :=
  match state with
  | none => first b
  | some p => p.next b

/-- The character that octets begin with, going on from `state`, and the octets after it. -/
def firstFrom : Option Pending → Bytes → Option (Char × Bytes)
  | _, [] => none
  | state, b :: rest =>
    match effect state b with
    | .completes c => some (c, rest)
    | .awaits p => firstFrom (some p) rest
    | .stray => none

/-- The character that octets begin with, and the octets after it. -/
def uncons? (bytes : Bytes) : Option (Char × Bytes) := firstFrom none bytes

/-- A character takes at least one octet. -/
theorem firstFrom_length {bytes rest : Bytes} {c : Char} :
    ∀ {state : Option Pending}, firstFrom state bytes = some (c, rest) →
      rest.length < bytes.length := by
  induction bytes with
  | nil => intro state h; simp [firstFrom] at h
  | cons b more ih =>
    intro state h
    rw [firstFrom] at h
    split at h
    · simp only [Option.some.injEq, Prod.mk.injEq] at h
      rw [h.2]
      exact Nat.lt_succ_self _
    · exact Nat.lt_succ_of_lt (ih h)
    · simp at h

/-- A character takes at least one octet. -/
theorem uncons?_length {bytes rest : Bytes} {c : Char} (h : uncons? bytes = some (c, rest)) :
    rest.length < bytes.length := firstFrom_length h

/-- The octets after a character are the last ones. -/
theorem firstFrom_suffix {bytes rest : Bytes} {c : Char} :
    ∀ {state : Option Pending}, firstFrom state bytes = some (c, rest) → rest <:+ bytes := by
  induction bytes with
  | nil => intro state h; simp [firstFrom] at h
  | cons b more ih =>
    intro state h
    rw [firstFrom] at h
    split at h
    · simp only [Option.some.injEq, Prod.mk.injEq] at h
      rw [← h.2]
      exact List.suffix_cons b more
    · exact (ih h).trans (List.suffix_cons b more)
    · simp at h

/-- The octets after a character are the last ones. -/
theorem uncons?_suffix {bytes rest : Bytes} {c : Char} (h : uncons? bytes = some (c, rest)) :
    rest <:+ bytes := firstFrom_suffix h

/-- How many octets a text takes. -/
def size (t : Text) : Nat := (encode t).length

/-- The text cut where its octets count `n`, if a character ends there. -/
def splitAt? : Nat → Text → Option (Text × Text)
  | 0, t => some ([], t)
  | _ + 1, [] => none
  | n + 1, c :: rest =>
    if c.utf8Size ≤ n + 1 then
      (splitAt? (n + 1 - c.utf8Size) rest).map fun (before, after) => (c :: before, after)
    else none

theorem size_cons (c : Char) (t : Text) : size (c :: t) = c.utf8Size + size t := by
  unfold size encode
  rw [List.flatMap_cons, List.length_append, String.length_utf8EncodeChar]

/-- A cut loses nothing, and the part before it counts as many octets as were asked for. -/
theorem splitAt?_eq_some {t : Text} :
    ∀ {n : Nat} {before after : Text}, splitAt? n t = some (before, after) →
      t = before ++ after ∧ size before = n := by
  induction t with
  | nil =>
    intro n before after h
    cases n with
    | zero =>
      simp only [splitAt?, Option.some.injEq, Prod.mk.injEq] at h
      obtain ⟨rfl, rfl⟩ := h
      exact ⟨rfl, rfl⟩
    | succ n => simp [splitAt?] at h
  | cons c rest ih =>
    intro n before after h
    cases n with
    | zero =>
      simp only [splitAt?, Option.some.injEq, Prod.mk.injEq] at h
      obtain ⟨rfl, rfl⟩ := h
      exact ⟨rfl, rfl⟩
    | succ n =>
      rw [splitAt?] at h
      split at h
      · next hfits =>
        simp only [Option.map_eq_some_iff, Prod.mk.injEq] at h
        obtain ⟨⟨head, tail⟩, hcut, rfl, rfl⟩ := h
        obtain ⟨rfl, hsize⟩ := ih hcut
        refine ⟨rfl, ?_⟩
        rw [size_cons, hsize, Nat.add_sub_cancel' hfits]
      · simp at h

end Aprs.Utf8
