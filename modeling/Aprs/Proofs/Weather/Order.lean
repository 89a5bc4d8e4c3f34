import Aprs.Proofs.Weather.Readings
import Aprs.Proofs.Weather.Tokenwise

/-!
# The order of weather fields

A station may send its fields in any order. Each token has its end in itself, so a row is found again
however it is ordered, and what it makes of a report does not depend on the order if no two of its tokens
write the same reading: two such tokens may change places (`Progress.apply_comm`), and with them all
(`foldl_perm`). An `s` needs more, since it gives the wind speed behind a `c` and the snowfall elsewhere. In
a row without a `c` it always gives the snowfall.

Some orders begin with a complete block and are read in another way than the rest. That makes no difference
either, unless what follows the row completes a block with a temperature that no token holds. It would have
to begin with a `t` (`read_eq_readTokenwise`).

> `decode_perm`: in front of what begins with neither a token nor a `t`, the tokens of a report may be
> sent in any order.

Specification: 4.5 (Weather Decoder).
-/

namespace Aprs.Weather

variable {row row' : List Token} {rest : Bytes}

/-! ## What a token writes -/

/-- The readings that a token writes where no `c` has named the direction of the wind. -/
def Token.readings : Token → List Reading
  | .wind _ _ => [.windDirection, .windSpeed]
  | .field f _ => [f.target false false]

/-- Whether what a token writes depends on what came before it. -/
def Token.isSpeedOrSnowfall : Token → Bool
  | .wind _ _ => false
  | .field f _ => f == .windSpeedOrSnowfall

/-- Where no `c` comes before an `s`, the report so far does not matter for what a token writes. -/
theorem Token.written?_eq {token : Token} {named : Bool}
    (h : token.isSpeedOrSnowfall = true → named = false) (speedHeld : Bool) (r : Reading) :
    token.written? named speedHeld r = token.written? false false r := by
  cases token with
  | wind direction speed => rfl
  | field f value =>
    have htarget : f.target named speedHeld = f.target false false := by
      cases f with
      | windSpeedOrSnowfall =>
        rw [h rfl]
        rfl
      | _ => rfl
    unfold Token.written?
    dsimp only
    rw [htarget]

theorem Token.written?_of_notMem {token : Token} {r : Reading} (h : r ∉ token.readings) :
    token.written? false false r = none := by
  cases token with
  | wind direction speed =>
    obtain ⟨hdirection, hspeed⟩ := not_or.mp (mt List.mem_cons.mpr h)
    exact (if_neg hdirection).trans (if_neg fun heq => hspeed (List.mem_singleton.mpr heq))
  | field f value => exact if_neg fun heq => h (List.mem_singleton.mpr heq.symm)

/-- A report is known by its readings and its fault. -/
theorem eq_of_reading_eq {w w' : Weather} (h : ∀ r, w.reading r = w'.reading r)
    (hfault : w.fault = w'.fault) : w = w' := by
  have hcount {x y : Option Nat} (heq : x.map Int.ofNat = y.map Int.ofNat) : x = y :=
    Option.map_injective (fun _ _ => Int.ofNat.inj) heq
  cases w
  cases w'
  simp only [mk.injEq]
  exact ⟨hcount (h .windDirection), hcount (h .windSpeed), hcount (h .windGust), h .temperature,
    hcount (h .rainLastHour), hcount (h .rainLastDay), hcount (h .rainSinceMidnight),
    hcount (h .humidity), hcount (h .pressure), hcount (h .luminosity), hcount (h .snowfall),
    hcount (h .rainCounter), hfault⟩

/-! ## Tokens that change places -/

/-- What a token writes goes before what was there. -/
theorem Progress.reading_apply_settled {p : Progress} {token : Token}
    (h : token.isSpeedOrSnowfall = true → p.directionAsField = false) (r : Reading) :
    (p.apply token).report.reading r = (token.written? false false r).getD (p.report.reading r) := by
  rw [reading_apply, Token.written?_eq h]

/-- **Two tokens that write different readings may change places**, if neither is an `s` behind a `c`. -/
theorem Progress.apply_comm {p : Progress} {a b : Token} (hapart : ∀ r ∈ a.readings, r ∉ b.readings)
    (ha : a.isSpeedOrSnowfall = true → (p.directionAsField || b.namesDirection) = false)
    (hb : b.isSpeedOrSnowfall = true → (p.directionAsField || a.namesDirection) = false) :
    (p.apply a).apply b = (p.apply b).apply a := by
  have hfirst {token other : Token}
      (h : token.isSpeedOrSnowfall = true → (p.directionAsField || other.namesDirection) = false) :
      token.isSpeedOrSnowfall = true → p.directionAsField = false :=
    fun hs => (Bool.or_eq_false_iff.mp (h hs)).1
  have hbehind {token other : Token}
      (h : token.isSpeedOrSnowfall = true → (p.directionAsField || other.namesDirection) = false) :
      token.isSpeedOrSnowfall = true → (p.apply other).directionAsField = false :=
    fun hs => (directionAsField_apply p other).trans (h hs)
  have hnamed : ((p.apply a).apply b).directionAsField = ((p.apply b).apply a).directionAsField := by
    simp only [directionAsField_apply]
    exact Bool.or_right_comm ..
  have hfault : ((p.apply a).apply b).report.fault = ((p.apply b).apply a).report.fault :=
    (fault_foldl [a, b] p).trans (fault_foldl [b, a] p).symm
  have hreading (r : Reading) :
      ((p.apply a).apply b).report.reading r = ((p.apply b).apply a).report.reading r := by
    rw [reading_apply_settled (hbehind hb), reading_apply_settled (hfirst ha),
      reading_apply_settled (hbehind ha), reading_apply_settled (hfirst hb)]
    -- one of the two has nothing to do with the reading
    by_cases hr : r ∈ a.readings
    · rw [Token.written?_of_notMem (hapart r hr)]
      rfl
    · rw [Token.written?_of_notMem hr]
      rfl
  have hreport := eq_of_reading_eq hreading hfault
  cases h : (p.apply a).apply b
  cases h' : (p.apply b).apply a
  rw [h, h'] at hnamed hreport
  rw [Progress.mk.injEq]
  exact ⟨hreport, hnamed⟩

/-- A row whose order does not matter: no two tokens write the same reading, and if it has an `s` then no
`c`, be it before the row or in it, has named the direction. -/
structure Orderless (named : Bool) (row : List Token) : Prop where
  once : (row.flatMap Token.readings).Nodup
  unmixed : ∀ token ∈ row, token.isSpeedOrSnowfall = true →
    (named || row.any Token.namesDirection) = false

theorem Orderless.perm {named : Bool} (h : Orderless named row) (hperm : row.Perm row') :
    Orderless named row' where
  once := ((hperm.flatMap_right Token.readings).nodup_iff).mp h.once
  unmixed token hmem hs := by
    rw [← hperm.any_eq]
    exact h.unmixed token (hperm.mem_iff.mpr hmem) hs

/-- Behind its first token, the rest of the row is as it was. -/
theorem Orderless.tail {p : Progress} {token : Token}
    (h : Orderless p.directionAsField (token :: row)) :
    Orderless (p.apply token).directionAsField row where
  once := (List.nodup_append.mp h.once).2.1
  unmixed other hmem hs := by
    rw [directionAsField_apply, Bool.or_assoc]
    exact h.unmixed other (List.mem_cons_of_mem _ hmem) hs

theorem Orderless.apply_comm {p : Progress} {a b : Token}
    (h : Orderless p.directionAsField (a :: b :: row)) : (p.apply a).apply b = (p.apply b).apply a := by
  have hone {c : Bool} (hall : (p.directionAsField || (a :: b :: row).any Token.namesDirection) = false)
      (hc : c = true → (a :: b :: row).any Token.namesDirection = true) :
      (p.directionAsField || c) = false := by
    obtain ⟨hnamed, hnone⟩ := Bool.or_eq_false_iff.mp hall
    exact Bool.or_eq_false_iff.mpr ⟨hnamed, Bool.eq_false_iff.mpr fun htrue =>
      Bool.false_ne_true (hnone.symm.trans (hc htrue))⟩
  have ha : a ∈ a :: b :: row := List.mem_cons_self
  have hb : b ∈ a :: b :: row := List.mem_cons_of_mem a List.mem_cons_self
  refine Progress.apply_comm (fun r hra hrb => ?_) (fun hs => ?_) fun hs => ?_
  · have honce := h.once
    rw [List.flatMap_cons, List.flatMap_cons] at honce
    exact (List.nodup_append.mp honce).2.2 r hra r (List.mem_append_left _ hrb) rfl
  · exact hone (h.unmixed a ha hs) fun htrue => List.any_eq_true.mpr ⟨b, hb, htrue⟩
  · exact hone (h.unmixed b hb hs) fun htrue => List.any_eq_true.mpr ⟨a, ha, htrue⟩

/-- **The tokens of a row may be taken in any order.** -/
theorem foldl_perm (hperm : row.Perm row') :
    ∀ p : Progress, Orderless p.directionAsField row →
      row.foldl Progress.apply p = row'.foldl Progress.apply p := by
  induction hperm with
  | nil => intro p _; rfl
  | cons token _ ih => intro p h; exact ih (p.apply token) h.tail
  | swap a b row =>
    intro p h
    rw [List.foldl_cons, List.foldl_cons, h.apply_comm]
    rfl
  | trans first _ ih ih' => intro p h; exact (ih p h).trans (ih' p (h.perm first))

/-! ## Blocks in a row -/

/-- **A row is read as its tokens** even where it begins with a complete block, if what follows it begins
with neither a token nor a `t`. -/
theorem read_eq_readTokenwise (hvalid : ∀ token ∈ row, token.Valid) (hend : Token.next? rest = none)
    (ht : rest.head? ≠ some (UInt8.ofNat 't'.toNat)) :
    read (Utf8.encode (rowText row) ++ rest) = readTokenwise (Utf8.encode (rowText row) ++ rest) := by
  have htokens : tokens (Utf8.encode (rowText row) ++ rest) = (row, rest) :=
    tokens_eq_iff.mpr ⟨hvalid, rfl, hend⟩
  cases hblock : block? (Utf8.encode (rowText row) ++ rest) with
  | none =>
    unfold read
    rw [hblock]
    rfl
  | some found =>
    obtain ⟨fields, more⟩ := found
    obtain ⟨b, hb, -, hbytes⟩ := block?_sound hblock
    by_cases htemperature : Field.temperature.Value b.temperature
    · rw [hbytes]
      exact (readTokenwise_block hb htemperature more).symm
    · -- the tokens would end in front of the temperature, and the row ends in front of no `t`
      have hbehind := readTokenwise_snd hb htemperature more
      rw [← hbytes] at hbehind
      unfold readTokenwise at hbehind
      rw [readFrom_snd, htokens, Utf8.encode_cons_append (by decide)] at hbehind
      rw [show rest = _ from hbehind] at ht
      exact absurd rfl ht

/-- What is read of a row, from what its tokens make of an empty report. -/
theorem read_row (hvalid : ∀ token ∈ row, token.Valid) (hend : Token.next? rest = none)
    (ht : rest.head? ≠ some (UInt8.ofNat 't'.toNat)) :
    read (Utf8.encode (rowText row) ++ rest) =
      finish (Utf8.encode (rowText row) ++ rest) (row.foldl Progress.apply ⟨empty, false⟩) rest := by
  rw [read_eq_readTokenwise hvalid hend ht]
  exact readFrom_eq_finish _ empty (tokens_eq_iff.mpr ⟨hvalid, rfl, hend⟩)

/-- **The order in which a station sends its fields does not matter.** If no two tokens of a row write the
same reading and a `c` and an `s` are not both in it, and if what follows begins with neither a token nor a
`t`, then the row in any other order is the same report and ends at the same place. -/
theorem decode_perm (hperm : row.Perm row') (hvalid : ∀ token ∈ row, token.Valid)
    (honce : (row.flatMap Token.readings).Nodup)
    (hunmixed : ∀ direction amount, Token.field .windDirection direction ∈ row →
      Token.field .windSpeedOrSnowfall amount ∉ row)
    (hend : ∀ token : Token, token.Valid → ¬Utf8.encode token.text <+: rest)
    (ht : rest.head? ≠ some (UInt8.ofNat 't'.toNat)) (front : Bytes) :
    decode (front ++ (Utf8.encode (rowText row') ++ rest)) front.length =
      decode (front ++ (Utf8.encode (rowText row) ++ rest)) front.length := by
  have hvalid' : ∀ token ∈ row', token.Valid := fun token hmem =>
    hvalid token (hperm.mem_iff.mpr hmem)
  have hnone : Token.next? rest = none := Token.next?_eq_none_iff.mpr hend
  have horderless : Orderless false row := by
    refine ⟨honce, fun token hmem hs => Bool.eq_false_iff.mpr fun hnamed => ?_⟩
    obtain ⟨other, hother, hdirection⟩ := List.any_eq_true.mp hnamed
    cases token with
    | wind direction speed => contradiction
    | field f amount =>
      cases other with
      | wind direction speed => contradiction
      | field g direction =>
        obtain rfl : f = .windSpeedOrSnowfall := beq_iff_eq.mp hs
        obtain rfl : g = .windDirection := beq_iff_eq.mp hdirection
        exact hunmixed direction amount hother hmem
  have hlength : (Utf8.encode (rowText row')).length = (Utf8.encode (rowText row)).length := by
    unfold Utf8.encode rowText
    exact ((hperm.flatMap_right _).flatMap_right _).length_eq.symm
  have hread : read (Utf8.encode (rowText row') ++ rest) = read (Utf8.encode (rowText row) ++ rest) := by
    rw [read_row hvalid' hnone ht, read_row hvalid hnone ht, ← foldl_perm hperm ⟨empty, false⟩ horderless]
    -- of the octets only their number matters, which tells whether anything was read
    unfold finish
    rw [List.length_append, hlength, ← List.length_append]
  unfold decode
  rw [List.drop_left, List.drop_left, hread]
  simp only [List.length_append, hlength]

/-- A report that begins with a complete block is the same with its tokens the other way round, though no
block is read then. Either way a luminosity is found behind them. -/
theorem decode_perm_reversed :
    let row := [Token.wind "220".toList "004".toList, .field .windGust "005".toList,
      .field .temperature "-05".toList, .field .rainLastHour "000".toList,
      .field .rainLastDay "001".toList, .field .rainSinceMidnight "000".toList,
      .field .humidity "00".toList, .field .pressure "09900".toList,
      .field .windSpeedOrSnowfall "012".toList, .field .rainCounter "123".toList]
    let rest := Utf8.encode "wRSW L123".toList
    (block? (Utf8.encode (rowText row) ++ rest)).isSome = true ∧
      block? (Utf8.encode (rowText row.reverse) ++ rest) = none ∧
      decode (Utf8.encode (rowText row.reverse) ++ rest) 0 =
        decode (Utf8.encode (rowText row) ++ rest) 0 ∧
      (decode (Utf8.encode (rowText row) ++ rest) 0).1.luminosity = some 1123 := by
  intro row rest
  have hnext : ∀ token ∈ row, Token.next? (Utf8.encode token.text) = some (token, []) := by
    decide +kernel
  have hvalid : ∀ token ∈ row, token.Valid := fun token hmem =>
    (Token.next?_eq_some_iff.mp (hnext token hmem)).1
  have hunmixed : ∀ direction amount, Token.field .windDirection direction ∈ row →
      Token.field .windSpeedOrSnowfall amount ∉ row := by
    intro direction amount hdirection
    simp [row] at hdirection
  have hend : ∀ token : Token, token.Valid → ¬Utf8.encode token.text <+: rest :=
    Token.next?_eq_none_iff.mp (by decide +kernel)
  exact ⟨by decide +kernel, by decide +kernel,
    decode_perm row.reverse_perm.symm hvalid (by decide +kernel) hunmixed hend (by decide +kernel) [],
    by decide +kernel⟩

end Aprs.Weather
