import Aprs.Base91
import Aprs.Decimal.Digits
import Aprs.Reader
import Aprs.Scalar

/-!
# Checked operations

The decoders are written with operations that always have a value: a place beyond the end of a string
holds a default, a piece is as long as there are octets, a difference stops at zero, numbers have no
greatest. A station's octets must not get to the point where that makes a difference.

Here the same operations check what they are asked for and abort where it cannot be given: a place or
a piece outside of a string, a text cut inside of a character, a number that its word does not hold.
The decoders are written once more in these operations in the modules below, step for step; that none
of the checks ever fails, and that the total decoders give the same result, is proved apart.

Places are counted in words whose greatest number is a parameter, `limit`.
-/

namespace Aprs

/-- Why a run is aborted. -/
inductive Abort
  | place
  | piece
  | insideCharacter
  | overflow
  | divisionByZero
  deriving DecidableEq, Repr

/-- What a run gives unless it is aborted. -/
abbrev Checked (β : Type) := Except Abort β

namespace Checked

variable {β γ : Type}

/-! ## Places and pieces -/

/-- The element at a place. -/
def element (xs : List β) (place : Nat) : Checked β :=
  match xs[place]? with
  | some x => .ok x
  | none => .error .place

/-- The octet at a place. -/
def octet (octets : Bytes) (place : Nat) : Checked UInt8 := element octets place

/-- The elements from a place up to another, if both lie in the list. -/
def piece? (xs : List β) (start stop : Nat) : Option (List β) :=
  if start ≤ stop ∧ stop ≤ xs.length then some ((xs.drop start).take (stop - start)) else none

/-- The elements from a place up to another. -/
def piece (xs : List β) (start stop : Nat) : Checked (List β) :=
  match piece? xs start stop with
  | some part => .ok part
  | none => .error .piece

/-- The elements up to a place. -/
def before (xs : List β) (stop : Nat) : Checked (List β) := piece xs 0 stop

/-- The elements from a place on. -/
def behind (xs : List β) (start : Nat) : Checked (List β) := piece xs start xs.length

/-- The text up to a number of octets, which a character must not cross. -/
def cutText (size : Nat) (t : Text) : Checked Text :=
  if Utf8.size t < size then .ok t
  else
    match Utf8.splitAt? size t with
    | some (head, _) => .ok head
    | none => .error .insideCharacter

/-! ## Numbers -/

/-- The greatest number of a word of eight bits. -/
def word8 : Nat := 0xFF

/-- A sum within a word. -/
def add (limit a b : Nat) : Checked Nat := if a + b ≤ limit then .ok (a + b) else .error .overflow

/-- A difference, which must not be negative. -/
def sub (a b : Nat) : Checked Nat := if b ≤ a then .ok (a - b) else .error .overflow

/-- A product within a word. -/
def mul (limit a b : Nat) : Checked Nat := if a * b ≤ limit then .ok (a * b) else .error .overflow

/-- A power within a word. -/
def pow (limit a b : Nat) : Checked Nat :=
  if Nat.pow a b ≤ limit then .ok (Nat.pow a b) else .error .overflow

/-- A quotient. -/
def div (a b : Nat) : Checked Nat := if b = 0 then .error .divisionByZero else .ok (a / b)

/-- An integer within a signed word of 32 bits. -/
def signed (n : Int) : Checked Int :=
  if -0x80000000 ≤ n ∧ n ≤ 0x7FFFFFFF then .ok n else .error .overflow

/-- The number that base-91 digits write, within 32 bits. -/
def base91 (digits : Bytes) : Checked (Except Base91.Error Nat) :=
  match Base91.decode digits with
  | .error .overflow => .error .overflow
  | result => .ok result

/-! ## What a check gives where it holds -/

/-- An element that is there is found. -/
theorem element_eq {xs : List β} {place : Nat} (h : place < xs.length) (default : β) :
    element xs place = .ok (xs.getD place default) := by
  unfold element
  rw [List.getD_eq_getElem?_getD, List.getElem?_eq_getElem h]
  rfl

theorem octet_eq {octets : Bytes} {place : Nat} (h : place < octets.length) :
    octet octets place = .ok (octets.getD place 0) := element_eq h 0

/-- The places of a string behind one of its places. -/
theorem octet_drop (octets : Bytes) (start place : Nat) :
    octet octets (start + place) = octet (octets.drop start) place := by
  unfold octet element
  rw [List.getElem?_drop]

/-- A piece that is within the list is found. -/
theorem piece?_eq {xs : List β} {start stop : Nat} (h : start ≤ stop) (hstop : stop ≤ xs.length) :
    piece? xs start stop = some ((xs.drop start).take (stop - start)) :=
  if_pos ⟨h, hstop⟩

/-- A piece that goes beyond the list is not. -/
theorem piece?_eq_none {xs : List β} {start stop : Nat} (h : xs.length < stop) :
    piece? xs start stop = none := if_neg fun hc => Nat.not_le_of_lt h hc.2

theorem piece_eq {xs : List β} {start stop : Nat} (h : start ≤ stop) (hstop : stop ≤ xs.length) :
    piece xs start stop = .ok ((xs.drop start).take (stop - start)) := by
  unfold piece
  rw [piece?_eq h hstop]

theorem before_eq {xs : List β} {stop : Nat} (h : stop ≤ xs.length) :
    before xs stop = .ok (xs.take stop) := by
  unfold before
  rw [piece_eq (Nat.zero_le _) h, List.drop_zero, Nat.sub_zero]

theorem behind_eq {xs : List β} {start : Nat} (h : start ≤ xs.length) :
    behind xs start = .ok (xs.drop start) := by
  unfold behind
  rw [piece_eq h (Nat.le_refl _), List.take_of_length_le (Nat.le_of_eq List.length_drop)]

theorem add_eq {limit a b : Nat} (h : a + b ≤ limit) : add limit a b = .ok (a + b) := if_pos h

theorem sub_eq {a b : Nat} (h : b ≤ a) : sub a b = .ok (a - b) := if_pos h

theorem mul_eq {limit a b : Nat} (h : a * b ≤ limit) : mul limit a b = .ok (a * b) := if_pos h

theorem pow_eq {limit a b : Nat} (h : Nat.pow a b ≤ limit) : pow limit a b = .ok (Nat.pow a b) :=
  if_pos h

theorem div_eq {a b : Nat} (h : b ≠ 0) : div a b = .ok (a / b) := if_neg h

theorem signed_eq {n : Int} (h : -0x80000000 ≤ n) (h' : n ≤ 0x7FFFFFFF) : signed n = .ok n :=
  if_pos ⟨h, h'⟩

/-- A digit more leaves the number below the power of the radix that the digits to come reach. -/
theorem digit_step {radix digit : Nat} (hdigit : digit < radix) (n count : Nat) :
    (radix * n + digit + 1) * Nat.pow radix count ≤ (n + 1) * Nat.pow radix (count + 1) := by
  have hnext : radix * n + digit + 1 ≤ (n + 1) * radix := by
    rw [Nat.succ_mul, Nat.mul_comm n radix]
    omega
  calc (radix * n + digit + 1) * Nat.pow radix count
      ≤ (n + 1) * radix * Nat.pow radix count := Nat.mul_le_mul_right _ hnext
    _ = (n + 1) * Nat.pow radix (count + 1) := by
      rw [Nat.mul_assoc, Nat.mul_comm radix]
      rfl

/-- A step that does not abort hands on its result. -/
theorem ok_bind (x : β) (k : β → Checked γ) : (Except.ok x >>= k) = k x := rfl

/-- A choice between runs that are not aborted. -/
theorem ite_ok {p : Prop} [Decidable p] {run run' : Checked β} {x y : β}
    (h : run = .ok x) (h' : ¬p → run' = .ok y) :
    (if p then run else run') = .ok (if p then x else y) := by
  split
  · exact h
  · next hp => exact h' hp

/-! ## Runs that may also find a fault -/

/-- The run is not aborted, and ends in the given result or fault. -/
def Gives {ε : Type} (run : ExceptT ε Checked β) (result : Except ε β) : Prop :=
  run.run = .ok result

namespace Gives

variable {ε : Type} {run : ExceptT ε Checked β} {result : Except ε β}

theorem pure (x : β) : Gives (Pure.pure x : ExceptT ε Checked β) (.ok x) := rfl

theorem throw (cause : ε) : Gives (MonadExcept.throw cause : ExceptT ε Checked β) (.error cause) :=
  rfl

/-- A result that has been found already. -/
theorem found (result : Except ε β) : Gives (liftM result : ExceptT ε Checked β) result := rfl

/-- A run goes on with what the one before it gives, seen in some way. -/
theorem bind_map {δ : Type} {run : ExceptT ε Checked δ} {result : Except ε β} {view : β → δ}
    {k : δ → ExceptT ε Checked γ} {k' : β → Except ε γ} (h : Gives run (result.map view))
    (hk : ∀ x, result = .ok x → Gives (k (view x)) (k' x)) : Gives (run >>= k) (result >>= k') := by
  unfold Gives at h ⊢
  rw [ExceptT.run_bind, h]
  cases result with
  | error cause => rfl
  | ok x => exact hk x rfl

/-- A run goes on with what the one before it gives. -/
theorem bind {k : β → ExceptT ε Checked γ} {k' : β → Except ε γ} (h : Gives run result)
    (hk : ∀ x, result = .ok x → Gives (k x) (k' x)) : Gives (run >>= k) (result >>= k') := by
  have hid : Gives run (result.map id) := by
    cases result <;> exact h
  exact bind_map hid hk

/-- A run goes on after a check that holds. -/
theorem check {check : Checked γ} {x : γ} {k : γ → ExceptT ε Checked β} (h : check = .ok x)
    (hk : Gives (k x) result) : Gives (liftM check >>= k) result := by
  subst h
  exact hk

end Gives

end Checked

end Aprs
