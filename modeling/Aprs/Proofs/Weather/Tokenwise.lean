import Aprs.Proofs.Cursor
import Aprs.Proofs.Weather.Pieces

/-!
# A complete block is read as its tokens

A complete block is taken at once, before the tokens. It could be left to them: the text of a block is a
row of nine fields in eight tokens (`Block.row`), each with its end in itself, so the row is found again in
front of whatever follows (`tokens_append`), and it writes the same readings (`foldl_row`), though the wind
speed gets into the report in another way. One thing sets the two apart. A block has any three characters
for the temperature, a token only a number or what stands for a missing one.

> `decode_eq_decodeTokenwise_iff`: where a report begins with a block, reading it token by token comes to
> the same exactly if a token may hold what the block has for the temperature.

Specification: 4.5 (Weather Decoder) and 12.5 (Weather).
-/

namespace Aprs.Weather

variable {rest behind payload : Bytes} {start : Nat}

/-- The report that octets begin with if no block is looked for, and the octets behind what was read in
order. -/
def readTokenwise (bytes : Bytes) : Weather × Bytes := readFrom bytes empty bytes

/-- The weather report at `start` if no block is looked for, and the place behind what was read in
order. -/
def decodeTokenwise (payload : Bytes) (start : Nat) : Weather × Nat :=
  let (report, rest) := readTokenwise (payload.drop start)
  (report, payload.length - rest.length)

/-! ## Rows of tokens -/

theorem rowText_append (row more : List Token) : rowText (row ++ more) = rowText row ++ rowText more :=
  List.flatMap_append

/-- Tokens are found again in front of anything. -/
theorem tokens_append {row : List Token} (h : ∀ token ∈ row, token.Valid) (rest : Bytes) :
    tokens (Utf8.encode (rowText row) ++ rest) = (row ++ (tokens rest).1, (tokens rest).2) := by
  obtain ⟨hvalid, hbytes, hend⟩ := tokens_sound rest
  refine tokens_eq_iff.mpr ⟨fun token hmem => ?_, ?_, hend⟩
  · rcases List.mem_append.mp hmem with hmem | hmem
    · exact h token hmem
    · exact hvalid token hmem
  · rw [rowText_append, Utf8.encode_append, List.append_assoc, ← hbytes]

theorem Field.letter_injective {f g : Field} (h : f.letter = g.letter) : f = g := by
  cases f <;> cases g <;> first | rfl | exact absurd h (by decide)

/-- Behind the letter of a field and as many characters as it is wide, there is a token exactly if they are
a value of the field. -/
theorem Token.next?_letter_eq_none_iff {f : Field} {written : Text} (h : written.length = f.width) :
    Token.next? (Utf8.encode (f.letter :: written) ++ rest) = none ↔ ¬f.Value written := by
  constructor
  · intro hnone hvalue
    have hsome : Token.next? (Utf8.encode (Token.field f written).text ++ rest) =
        some (.field f written, rest) :=
      Token.next?_eq_some_iff.mpr ⟨hvalue, rfl⟩
    exact nomatch hnone.symm.trans hsome
  · intro hvalue
    refine Option.eq_none_iff_forall_ne_some.mpr fun ⟨token, more⟩ hsome => ?_
    obtain ⟨hvalid, hbytes⟩ := Token.next?_eq_some_iff.mp hsome
    have hhead := congrArg Utf8.uncons? hbytes
    cases token with
    | wind direction speed =>
      -- a direction does not begin with a letter
      cases direction with
      | nil => exact absurd hvalid.1.length (by decide)
      | cons c direction =>
        have hfirst := (Utf8.uncons?_encode_cons _ _ _).symm.trans
          (hhead.trans (Utf8.uncons?_encode_cons c (direction ++ '/' :: speed) more))
        obtain ⟨hletter, -⟩ := Prod.mk.inj (Option.some.inj hfirst)
        exact hvalid.1.head_ne_letter f hletter.symm
    | field g value =>
      have hfirst := (Utf8.uncons?_encode_cons _ _ _).symm.trans
        (hhead.trans (Utf8.uncons?_encode_cons g.letter value more))
      obtain ⟨hletter, hbehind⟩ := Prod.mk.inj (Option.some.inj hfirst)
      obtain rfl := Field.letter_injective hletter
      have hlength : written.length = value.length := h.trans (Field.Value.length hvalid).symm
      obtain ⟨rfl, -⟩ := Utf8.encode_append_inj hlength hbehind
      exact hvalue hvalid

/-! ## The row of a block -/

namespace Block

variable (b : Block)

/-- The tokens of a block in front of its temperature. -/
def windRow : List Token := [.wind b.direction b.speed, .field .windGust b.gust]

/-- The tokens of a block behind its temperature. -/
def rainRow : List Token :=
  [.field .rainLastHour b.lastHour, .field .rainLastDay b.lastDay,
    .field .rainSinceMidnight b.sinceMidnight, .field .humidity b.humidity, .field .pressure b.pressure]

/-- The tokens of a block. -/
def row : List Token := b.windRow ++ .field .temperature b.temperature :: b.rainRow

/-- A block is written as the tokens of its row. -/
theorem text_eq_rowText : b.text = rowText b.row := by
  simp only [text, row, windRow, rainRow, rowText, List.flatMap_cons,
    List.flatMap_nil, Token.text, Field.letter, List.append_assoc, List.cons_append, List.nil_append,
    List.append_nil]

/-- A block is its wind, its temperature and its rain. -/
theorem encode_text_append (rest : Bytes) :
    Utf8.encode b.text ++ rest = Utf8.encode (rowText b.windRow) ++
      (Utf8.encode ('t' :: b.temperature) ++ (Utf8.encode (rowText b.rainRow) ++ rest)) := by
  rw [text_eq_rowText, row, rowText_append, Utf8.encode_append, List.append_assoc, encode_rowText_cons]
  rfl

variable {b}

theorem Valid.windRow_valid (h : b.Valid) : ∀ token ∈ b.windRow, token.Valid := by
  have hgust : Field.windGust.Value b.gust := Or.inl (Or.inl h.gust)
  simp only [windRow, List.forall_mem_cons]
  exact ⟨⟨Or.inl h.direction, Or.inl h.speed⟩, hgust, fun _ hmem => absurd hmem List.not_mem_nil⟩

theorem Valid.rainRow_valid (h : b.Valid) : ∀ token ∈ b.rainRow, token.Valid := by
  have hdigits {f : Field} {t : Text} (ht : Text.Digits f.width t) : (Token.field f t).Valid :=
    Or.inl (Or.inl ht)
  simp only [rainRow, List.forall_mem_cons]
  exact ⟨hdigits h.lastHour, hdigits h.lastDay, hdigits h.sinceMidnight, hdigits h.humidity,
    hdigits h.pressure, fun _ hmem => absurd hmem List.not_mem_nil⟩

/-- All tokens of a block are valid if a token may hold its temperature. -/
theorem Valid.row_valid (h : b.Valid) (htemperature : Field.temperature.Value b.temperature) :
    ∀ token ∈ b.row, token.Valid := by
  intro token hmem
  rcases List.mem_append.mp hmem with hmem | hmem
  · exact h.windRow_valid token hmem
  · rcases List.mem_cons.mp hmem with rfl | hmem
    · exact htemperature
    · exact h.rainRow_valid token hmem

/-- The tokens of a block make of an empty report what the block does. Neither of them counts as naming the
direction by its letter. -/
theorem foldl_row (b : Block) :
    b.row.foldl Progress.apply ⟨empty, false⟩ = ⟨empty.applyBlock b.fields, false⟩ := rfl

end Block

/-! ## Either way of reading -/

/-- What comes of a report behind the last token. -/
def finish (bytes : Bytes) (progress : Progress) (behind : Bytes) : Weather × Bytes :=
  let (report, found) := seekAll progress.directionAsField behind progress.report
  if behind.length = bytes.length ∧ found = false then
    ({ report with fault := some .nothingFound }, behind)
  else (report, behind)

/-- Reading applies the row of tokens and then looks for what is missing. -/
theorem readFrom_eq_finish (bytes : Bytes) (held : Weather) {row : List Token}
    (h : tokens rest = (row, behind)) :
    readFrom bytes held rest = finish bytes (row.foldl Progress.apply ⟨held, false⟩) behind := by
  unfold readFrom
  rw [h]
  rfl

/-- Looking for what is missing takes no octets. -/
theorem finish_snd (bytes : Bytes) (progress : Progress) (behind : Bytes) :
    (finish bytes progress behind).2 = behind := by
  unfold finish
  generalize seekAll progress.directionAsField behind progress.report = result
  obtain ⟨report, found⟩ := result
  dsimp only
  split <;> rfl

/-- Tokens that are all there may be taken in advance. -/
theorem readFrom_append {row : List Token} (h : ∀ token ∈ row, token.Valid) {start held : Weather}
    (hrow : row.foldl Progress.apply ⟨start, false⟩ = ⟨held, false⟩) (bytes rest : Bytes) :
    readFrom bytes start (Utf8.encode (rowText row) ++ rest) = readFrom bytes held rest := by
  rw [readFrom_eq_finish bytes start (tokens_append h rest), List.foldl_append, hrow,
    readFrom_eq_finish bytes held (rfl : tokens rest = (_, _))]

/-- The place behind a report is that behind its row of tokens. -/
theorem readFrom_snd (bytes : Bytes) (held : Weather) (rest : Bytes) :
    (readFrom bytes held rest).2 = (tokens rest).2 := by
  rw [readFrom_eq_finish bytes held (rfl : tokens rest = (_, _)), finish_snd]

/-- Behind a block, all is left to the tokens. -/
theorem read_block {b : Block} (h : b.Valid) (rest : Bytes) :
    read (Utf8.encode b.text ++ rest) =
      readFrom (Utf8.encode b.text ++ rest) (empty.applyBlock b.fields) rest := by
  unfold read
  rw [block?_encode h]

theorem readTokenwise_suffix (bytes : Bytes) : (readTokenwise bytes).2 <:+ bytes :=
  readFrom_suffix bytes empty bytes

/-- A block whose temperature a token may hold is read the same either way. -/
theorem readTokenwise_block {b : Block} (h : b.Valid)
    (htemperature : Field.temperature.Value b.temperature) (rest : Bytes) :
    readTokenwise (Utf8.encode b.text ++ rest) = read (Utf8.encode b.text ++ rest) := by
  have hrow := readFrom_append (h.row_valid htemperature) b.foldl_row (Utf8.encode b.text ++ rest) rest
  rw [← b.text_eq_rowText] at hrow
  exact hrow.trans (read_block h rest).symm

/-- A block whose temperature no token may hold stops the tokens in front of it. -/
theorem readTokenwise_snd {b : Block} (h : b.Valid) (htemperature : ¬Field.temperature.Value b.temperature)
    (rest : Bytes) : (readTokenwise (Utf8.encode b.text ++ rest)).2 =
      Utf8.encode ('t' :: b.temperature) ++ (Utf8.encode (rowText b.rainRow) ++ rest) := by
  have hnone : Token.next? (Utf8.encode ('t' :: b.temperature) ++
      (Utf8.encode (rowText b.rainRow) ++ rest)) = none :=
    (Token.next?_letter_eq_none_iff (f := .temperature) h.temperature.length).mpr htemperature
  unfold readTokenwise
  rw [readFrom_snd, b.encode_text_append, tokens_append h.windRow_valid, tokens_of_none hnone]

/-- Reading a block at once and reading it token by token leave the same octets only if a token may hold
its temperature. -/
theorem value_of_length_eq {b : Block} (h : b.Valid) (rest : Bytes)
    (hlength : (read (Utf8.encode b.text ++ rest)).2.length =
      (readTokenwise (Utf8.encode b.text ++ rest)).2.length) : Field.temperature.Value b.temperature := by
  refine Classical.byContradiction fun htemperature => ?_
  rw [readTokenwise_snd h htemperature, read_block h, readFrom_snd, List.length_append,
    Utf8.encode_cons_ascii (by decide), List.length_cons, List.length_append] at hlength
  have hshorter := (tokens_suffix rest).length_le
  omega

/-- **A report that begins with a block is read the same token by token**, its readings and its end alike,
exactly if a token may hold what the block has for the temperature: three digits, a minus and two, or three
dots or blanks. -/
theorem decode_eq_decodeTokenwise_iff {b : Block} (hvalid : b.Valid)
    (hbegins : Utf8.encode b.text <+: payload.drop start) :
    decode payload start = decodeTokenwise payload start ↔ Field.temperature.Value b.temperature := by
  obtain ⟨rest, hbytes⟩ := hbegins
  have hatOnce : decode payload start = ((read (Utf8.encode b.text ++ rest)).1,
      payload.length - (read (Utf8.encode b.text ++ rest)).2.length) := by
    rw [hbytes]
    rfl
  have htokenwise : decodeTokenwise payload start = ((readTokenwise (Utf8.encode b.text ++ rest)).1,
      payload.length - (readTokenwise (Utf8.encode b.text ++ rest)).2.length) := by
    rw [hbytes]
    rfl
  rw [hatOnce, htokenwise, Prod.mk.injEq]
  constructor
  · rintro ⟨-, hplace⟩
    -- either way the octets that are left are some of the payload, so they are as many either way
    have hroom : (Utf8.encode b.text ++ rest).length ≤ payload.length := by
      rw [hbytes, List.length_drop]
      exact Nat.sub_le _ _
    have hleft := (read_suffix (Utf8.encode b.text ++ rest)).length_le
    have hleft' := (readTokenwise_suffix (Utf8.encode b.text ++ rest)).length_le
    exact value_of_length_eq hvalid rest (by omega)
  · intro htemperature
    rw [readTokenwise_block hvalid htemperature]
    exact ⟨rfl, rfl⟩

/-- Dots for the temperature are read the same either way, a plus before two digits is not: no token holds
it. In both reports a snowfall follows, and a rain counter that no token leads up to. -/
theorem decode_eq_decodeTokenwise_dots :
    let dots := Utf8.encode "_220/004g005t...r000p000P000h50b09900s012wx#123".toList
    let plus := Utf8.encode "_220/004g005t+12r000p000P000h50b09900s012wx#123".toList
    decode dots 1 = decodeTokenwise dots 1 ∧ decode plus 1 ≠ decodeTokenwise plus 1 := by
  intro dots plus
  let b (temperature : Text) : Block := ⟨"220".toList, "004".toList, "005".toList, temperature,
    "000".toList, "000".toList, "000".toList, "50".toList, "09900".toList⟩
  let rest := Utf8.encode "s012wx#123".toList
  have hdots : (b "...".toList).Valid := by constructor <;> decide
  have hplus : (b "+12".toList).Valid := by constructor <;> decide
  constructor
  · exact (decode_eq_decodeTokenwise_iff hdots ⟨rest, by decide⟩).mpr
      (Or.inr ⟨by decide, Or.inr (Or.inl rfl)⟩)
  · refine mt (decode_eq_decodeTokenwise_iff hplus ⟨rest, by decide⟩).mp ?_
    rintro ((h | ⟨-, digits, h, -⟩) | ⟨-, h | h | h⟩)
    · exact absurd (h.digit '+' (by decide)) (by decide)
    · exact absurd (List.cons.inj h).1 (by decide)
    · exact absurd (h.digit '+' (by decide)) (by decide)
    · exact absurd h (by decide)
    · exact absurd h (by decide)

end Aprs.Weather
