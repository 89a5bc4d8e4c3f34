import Aprs.Checked.Weather
import Aprs.Proofs.Decimal.Integer

/-!
# No check of a weather report fails

The octets from the cursor on are those that the total decoder has left, so the cursor never passes
the end: it is the length of the payload less theirs. What is written for a field has at most five
digits, so no sum leaves its word.

> `decodeWeather_eq`: the checked reading of a weather report is never aborted and agrees with the
> total one.

Specification: 4.5 (Weather Decoder).
-/

namespace Aprs.Checked

/-! ## Readings -/

/-- Five characters write a number below a hundred thousand. -/
theorem integer?_lt {t : Text} {n : Int} (h : Decimal.integer? t = some n) (hlength : t.length ≤ 5) :
    n < 100000 := by
  have hlt := (Decimal.integer?_eq_some_iff.mp h).lt_pow
  have hpow : Nat.pow 10 t.length ≤ Nat.pow 10 5 := Nat.pow_le_pow_right (by decide) hlength
  have hfive : Nat.pow 10 5 = 100000 := rfl
  omega

/-- A reading is set without overflow, since no field is wider than five. -/
theorem setReading_eq (w : Weather) (directionAsField : Bool) {f : Weather.Field} {written : Text}
    (h : written.length = f.width) :
    setReading w directionAsField f written = .ok (w.set directionAsField f written) := by
  have hwidth : f.width ≤ 5 := by cases f <;> decide
  unfold setReading
  split
  · next n hn =>
    have hlt := integer?_lt hn (by omega)
    rw [signed_eq (by omega) (by omega), ok_bind]
    unfold Weather.set
    rw [hn]
    have hsum : (max n 0 + 1000).toNat = n.toNat + 1000 := by omega
    rw [hsum]
    rfl
  · rfl

/-! ## Tokens -/

/-- A token is applied without an abort. -/
theorem applyToken_eq (p : Weather.Progress) {token : Weather.Token} {bytes rest : Bytes}
    (h : Weather.Token.next? bytes = some (token, rest)) :
    applyToken p token = .ok (p.apply token) := by
  cases token with
  | wind direction speed => rfl
  | field f written =>
    unfold applyToken
    dsimp only
    rw [setReading_eq _ _ (Weather.Token.next?_width h)]
    rfl

variable {limit : Nat} {payload : Bytes}

/-- What is left is found again at the place that its length tells. -/
theorem drop_of_suffix {start : Nat} {rest : Bytes} (h : rest <:+ payload.drop start) :
    payload.drop (payload.length - rest.length) = rest :=
  (List.suffix_iff_eq_drop.mp (h.trans (List.drop_suffix _ _))).symm

/-- The cursor stands behind all but the octets that the total decoder has left. -/
theorem probe_eq (hlimit : payload.length ≤ limit) (p : Weather.Progress) (cursor : Nat)
    (h : cursor ≤ payload.length) :
    probe limit payload p cursor =
      .ok ((Weather.tokens (payload.drop cursor)).1.foldl Weather.Progress.apply p,
        payload.length - (Weather.tokens (payload.drop cursor)).2.length) := by
  rw [probe]
  split
  · next hrest => rw [behind_eq h] at hrest; simp at hrest
  next rest hrest =>
  obtain ⟨-, rfl⟩ := length_of_behind hrest
  split
  · next htoken =>
    rw [Weather.tokens_of_none htoken, List.length_drop, Nat.sub_sub_self h]
    rfl
  · next token more htoken =>
    have hmore := Weather.Token.next?_length htoken
    -- the cursor moves on by what the token took, which is no more than was there
    have hnext : cursor + ((payload.drop cursor).length - more.length) ≤ payload.length := by
      rw [List.length_drop]
      omega
    rw [applyToken_eq p htoken, ok_bind]
    split
    · next hadd => rw [add_eq (Nat.le_trans hnext hlimit)] at hadd; simp at hadd
    next next' hadd =>
    obtain rfl := eq_of_add hadd
    -- behind it stands what the token has left, from where the total decoder goes on
    have hdrop : payload.drop (cursor + ((payload.drop cursor).length - more.length)) = more := by
      rw [← List.drop_drop]
      exact (List.suffix_iff_eq_drop.mp (Weather.Token.next?_suffix htoken)).symm
    rw [probe_eq hlimit _ _ hnext, hdrop, Weather.tokens_of_some htoken]
    rfl
  termination_by payload.length - cursor
  decreasing_by
    rw [List.length_drop] at hmore ⊢
    omega

/-! ## What is looked for behind the tokens -/

/-- A field is sought behind a cursor without an abort. -/
theorem seek_eq {cursor : Nat} (h : cursor ≤ payload.length) (directionAsField : Bool) (w : Weather)
    (f : Weather.Field) :
    seek directionAsField payload cursor w f =
      .ok (Weather.seek directionAsField (payload.drop cursor) w f) := by
  unfold seek Weather.seek
  split
  · rfl
  · rw [behind_eq h, ok_bind]
    cases hfind : Weather.find? f (payload.drop cursor) with
    | none => rfl
    | some written =>
      dsimp only
      rw [setReading_eq w directionAsField (Weather.find?_width hfind)]
      rfl

/-- So is one field after the other, by induction on the fields. -/
theorem seekAll_eq {cursor : Nat} (h : cursor ≤ payload.length) (directionAsField : Bool)
    (fields : List Weather.Field) :
    ∀ state : Weather × Bool, seekAll directionAsField payload cursor fields state =
      .ok (fields.foldl (fun (w, found) f =>
        let (w, foundNow) := Weather.seek directionAsField (payload.drop cursor) w f
        (w, found || foundNow)) state) := by
  induction fields with
  | nil => intro state; rfl
  | cons f rest ih =>
    intro (w, found)
    unfold seekAll
    rw [seek_eq h, ok_bind]
    exact ih _

theorem seekSought_eq {cursor : Nat} (h : cursor ≤ payload.length) (directionAsField : Bool)
    (w : Weather) :
    seekAll directionAsField payload cursor Weather.sought (w, false) =
      .ok (Weather.seekAll directionAsField (payload.drop cursor) w) :=
  seekAll_eq h directionAsField Weather.sought (w, false)

/-! ## The whole report -/

/-- The place behind a block has not passed the end. -/
theorem decodeBlock_eq (hlimit : payload.length ≤ limit) {start : Nat}
    (h : start ≤ payload.length) :
    decodeBlock limit payload start =
      .ok (match Weather.block? (payload.drop start) with
        | some (fields, rest) => (Weather.empty.applyBlock fields, payload.length - rest.length)
        | none => (Weather.empty, start)) := by
  unfold decodeBlock
  rw [behind_eq h, ok_bind]
  cases hblock : Weather.block? (payload.drop start) with
  | none => rfl
  | some found =>
    obtain ⟨fields, rest⟩ := found
    have hlength := (Weather.block?_suffix hblock).length_le
    rw [List.length_drop] at hlength
    dsimp only
    rw [List.length_drop, add_eq (by omega),
      show start + (payload.length - start - rest.length) = payload.length - rest.length by omega]
    rfl

/-- The cursor stands where the fields began exactly if nothing of them was taken. -/
theorem decodeFields_eq (hlimit : payload.length ≤ limit) {start cursor : Nat}
    (hstart : start ≤ cursor) (h : cursor ≤ payload.length) (held : Weather) :
    decodeFields limit payload start held cursor =
      .ok ((Weather.readFrom (payload.drop start) held (payload.drop cursor)).1,
        payload.length -
          (Weather.readFrom (payload.drop start) held (payload.drop cursor)).2.length) := by
  have hsuffix := Weather.tokens_suffix (payload.drop cursor)
  unfold decodeFields Weather.readFrom
  rw [probe_eq hlimit _ _ h, ok_bind]
  revert hsuffix
  generalize Weather.tokens (payload.drop cursor) = row
  obtain ⟨row, rest⟩ := row
  intro (hsuffix : rest <:+ payload.drop cursor)
  have hlength := hsuffix.length_le
  rw [List.length_drop] at hlength
  dsimp only
  rw [seekSought_eq (Nat.sub_le _ _), ok_bind, drop_of_suffix hsuffix]
  generalize Weather.seekAll _ _ _ = state
  obtain ⟨report, found⟩ := state
  dsimp only
  -- as many octets are left as there were exactly if the cursor stands where it began
  by_cases hnothing : rest.length = (payload.drop start).length ∧ found = false
  · rw [if_pos hnothing]
    rw [List.length_drop] at hnothing
    rw [if_pos ⟨by omega, hnothing.2⟩]
    rfl
  · rw [if_neg hnothing]
    rw [List.length_drop] at hnothing
    rw [if_neg fun hc => hnothing ⟨by omega, hc.2⟩]
    rfl

/-- **The checked reading of a weather report is never aborted** and agrees with the total one. -/
theorem decodeWeather_eq (hlimit : payload.length ≤ limit) (start : Nat) :
    decodeWeather limit payload start = .ok (Weather.decode payload start) := by
  have hdrop : payload.drop (min start payload.length) = payload.drop start := by
    rcases Nat.le_total start payload.length with h | h
    · rw [Nat.min_eq_left h]
    · rw [Nat.min_eq_right h, List.drop_length, List.drop_eq_nil_of_le h]
  have hstart : min start payload.length ≤ payload.length := Nat.min_le_right _ _
  unfold decodeWeather Weather.decode Weather.read
  dsimp only
  rw [decodeBlock_eq hlimit hstart, ok_bind]
  cases hblock : Weather.block? (payload.drop (min start payload.length)) with
  | none =>
    dsimp only
    rw [decodeFields_eq hlimit (Nat.le_refl _) hstart, hdrop]
    rw [hdrop] at hblock
    rw [hblock]
  | some found =>
    obtain ⟨fields, rest⟩ := found
    have hsuffix := Weather.block?_suffix hblock
    have hlength := hsuffix.length_le
    rw [List.length_drop] at hlength
    dsimp only
    rw [decodeFields_eq hlimit (by omega) (Nat.sub_le _ _), drop_of_suffix hsuffix, hdrop]
    rw [hdrop] at hblock
    rw [hblock]

end Aprs.Checked
