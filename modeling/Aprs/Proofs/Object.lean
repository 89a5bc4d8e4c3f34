import Aprs.Proofs.Object.Name
import Aprs.Proofs.Payload.Contents
import Aprs.Proofs.Position.Rereading
import Aprs.Proofs.Timestamp.Rereading

/-!
# Objects and items that are sent on

The fields of an object have fixed widths, so each of them is found where it was written: the name, padded
to nine characters, from which the padding is trimmed again, the flag, the timestamp and the position
(`Object.encode_text`). The name of an item ends at its flag, and holds none (`Item.named_eq_ok`). Objects and
items are `Settled` if each of their fields is read from its text as it is. Those that were read without a
fault are, so

> `reread_of_ascii`: an object or an item of ASCII characters that was read without a fault is read from its
> text as it was, but for what the comment told.

Specification: 12.7 (Objects and items).
-/

namespace Aprs

variable {α : Type} [Scalar α] {payload : Bytes} {destination : Callsign} {now : Instant}

/-! ## Objects -/

namespace Object

variable {object : Object α} {cursor : Nat}

/-- What is long enough is an object: a name, a flag, a timestamp and a position. -/
theorem decode_eq (h : minLength ≤ payload.length) :
    decode (α := α) payload destination now =
      let time := Timestamp.decode payload 11 now
      let read := PositionReport.decode payload time.2 destination (time.1.generated now)
      .ok (⟨Text.trim (Utf8.lossy ((payload.drop 1).take 9)), payload.getD 10 0 == 0x2A, time.1, read.1⟩,
        read.2) := by
  unfold decode
  rw [if_neg (Nat.not_lt.mpr h)]
  rfl

/-- The parts of an object that is read, each from its place. -/
theorem decode_eq_ok (h : decode payload destination now = .ok (object, cursor)) :
    object.name = Text.trim (Utf8.lossy ((payload.drop 1).take 9)) ∧
      (Timestamp.decode payload 11 now).1 = object.time ∧
      (PositionReport.decode payload (Timestamp.decode payload 11 now).2 destination
        (object.time.generated now)).1 = object.report := by
  by_cases hlength : minLength ≤ payload.length
  · rw [decode_eq hlength] at h
    obtain ⟨rfl, -⟩ := Prod.mk.inj (Except.ok.inj h)
    exact ⟨rfl, rfl, rfl⟩
  · unfold decode at h
    rw [if_pos (Nat.lt_of_not_le hlength)] at h
    contradiction

/-- A name of ASCII characters that has room in its field and is trimmed. -/
structure IsName (name : Text) : Prop where
  ascii : ∀ c ∈ name, c.toNat < 0x80
  length_le : name.length ≤ nameWidth
  trim_eq : Text.trim name = name

/-- Octets of ASCII, trimmed, are a name that can be read again. -/
theorem isName_of_octets {octets : Bytes} (hascii : ∀ b ∈ octets, b.toNat < 0x80)
    (hlength : octets.length ≤ nameWidth) : IsName (Text.trim (Utf8.lossy octets)) := by
  have hread := isRead_of_octets hlength
  refine ⟨fun c hc => ?_, hread.length_le, hread.trim_eq⟩
  have hmem := (Text.trim_sublist _).mem hc
  rw [Utf8.lossy_ascii hascii] at hmem
  obtain ⟨b, hb, rfl⟩ := List.mem_map.mp hmem
  rw [Utf8.toNat_charOfByte]
  exact hascii b hb

/-- The field of a name has the width that is due to it. -/
theorem IsName.length_encode_field {name : Text} (h : IsName name) :
    (Utf8.encode (padRight nameWidth name)).length = nameWidth :=
  (IsRead.mk h.length_le h.trim_eq).length_nameField_iff.mpr h.ascii

/-- The padding of a name is trimmed again. -/
theorem IsName.trim_lossy_field {name : Text} (h : IsName name) :
    Text.trim (Utf8.lossy (Utf8.encode (padRight nameWidth name))) = name := by
  rw [Utf8.lossy_encode, padRight, Text.trim_padding, h.trim_eq]

/-- The octet of the flag. -/
def flag (live : Bool) : UInt8 := if live then 0x2A else 0x5F

theorem flag_beq (live : Bool) : (flag live == 0x2A) = live := by
  cases live <;> rfl

/-- The octets of an object: its name, its flag, its timestamp and its position. -/
theorem encode_text (object : Object α) :
    Utf8.encode object.text = 0x3B :: (Utf8.encode (padRight nameWidth object.name) ++
      flag object.live :: (Utf8.encode (timeText object.time) ++
        Utf8.encode object.report.position.text)) := by
  have hflag (t : Text) : Utf8.encode ((if object.live then '*' else '_') :: t) =
      flag object.live :: Utf8.encode t := by
    cases object.live <;> exact Utf8.encode_cons_ascii (by decide) t
  unfold text
  rw [Utf8.encode_append, Utf8.encode_append, hflag, Utf8.encode_cons_ascii (by decide),
    List.append_assoc]
  rfl

/-- Behind an identifier each field of an object stands where its width puts it. -/
theorem drop_octets {again field time position : Bytes} {flag : UInt8}
    (h : again = 0x3B :: (field ++ flag :: (time ++ position))) (hfield : field.length = nameWidth)
    (htime : time.length = 7) :
    (again.drop 1).take 9 = field ∧ again.drop 10 = flag :: (time ++ position) ∧
      again.drop 11 = time ++ position ∧ again.drop 18 = position := by
  have hflag : again.drop 10 = flag :: (time ++ position) := by
    rw [h]
    exact List.drop_left' hfield
  have hstamp : again.drop 11 = time ++ position := by
    have hdrop : (again.drop 10).drop 1 = again.drop 11 := List.drop_drop
    rw [← hdrop, hflag]
    rfl
  refine ⟨?_, hflag, hstamp, ?_⟩
  · rw [h]
    exact List.take_left' hfield
  · have hdrop : (again.drop 11).drop 7 = again.drop 18 := List.drop_drop
    rw [← hdrop, hstamp]
    exact List.drop_left' htime

/-- An object of which every field is read from its text as it is. The altitude is not in it. -/
structure Settled (object : Object α) (now : Instant) : Prop where
  isName : IsName object.name
  length_time : (Utf8.encode (timeText object.time)).length = 7
  decode_time {again rest : Bytes} : again.drop 11 = Utf8.encode (timeText object.time) ++ rest →
    Timestamp.decode again 11 now = (object.time, 18)
  position : object.report.position.withoutAltitude.Settled
  instant_eq : object.report.position.instant = object.time.generated now

/-- **An object that was read is settled**, if it was read from octets of ASCII without a fault and the form
of its timestamp is one that an object writes. -/
theorem settled_of_decode [Scalar.Accurate α] (hascii : ∀ b ∈ payload, b.toNat < 0x80)
    (h : decode payload destination now = .ok (object, cursor))
    (hposition : object.report.fault = none) (hsource : object.report.source = .uncompressed)
    (htime : object.time.fault = none) (hformat : object.time.format ≠ some .monthDayHourMinute) :
    object.Settled now := by
  obtain ⟨hname, hstamp, hreport⟩ := decode_eq_ok h
  obtain ⟨hsettled, hinstant⟩ := PositionReport.settled_of_decode hascii hreport hposition hsource
  rw [← hstamp] at htime hformat
  refine ⟨?_, ?_, fun hagain => ?_, hsettled, hinstant⟩
  · rw [hname]
    refine isName_of_octets (fun b hb => ?_) (List.length_take_le 9 _)
    exact hascii b (List.mem_of_mem_drop (List.mem_of_mem_take hb))
  · obtain ⟨format, t, hread, -⟩ := Timestamp.exists_resolve_of_sound htime
    rw [← hstamp, hread]
    exact Timestamp.length_encode_timeText format t none
  · rw [← hstamp] at hagain ⊢
    exact Timestamp.decode_timeText htime hformat hagain

/-- **A settled object is read from its text**, but for what the comment told. -/
theorem Settled.decode_text (h : object.Settled now) (destination : Callsign) :
    decode (Utf8.encode object.text) destination now =
      .ok (⟨object.name, object.live, object.time,
        .plain object.report.position.withoutAltitude .uncompressed⟩, (Utf8.encode object.text).length) := by
  have hoctets := encode_text object
  have hposition : (Utf8.encode object.report.position.text).length = 19 := h.position.length_encode_text
  have hlength := congrArg List.length hoctets
  simp only [List.length_cons, List.length_append, h.isName.length_encode_field, h.length_time] at hlength
  obtain ⟨hfield, hflag, hdropTime, hdropPosition⟩ :=
    drop_octets hoctets h.isName.length_encode_field h.length_time
  have hplain : Payload.Plain (Utf8.encode object.text) := by
    rw [hoctets]
    show charOfByte 0x3B ∉ _
    decide
  generalize Utf8.encode object.text = again at *
  -- from here on the text is known by its fields only
  have hlive : (again.getD 10 0 == 0x2A) = object.live := by
    have hplace : again[10]? = some (flag object.live) := by
      have hfirst := congrArg (·[0]?) hflag
      rw [List.getElem?_drop] at hfirst
      exact hfirst
    rw [List.getD_eq_getElem?_getD, hplace]
    exact flag_beq object.live
  have hread : PositionReport.decode again 18 destination (object.time.generated now) =
      (.plain object.report.position.withoutAltitude .uncompressed, again.length) := by
    rw [hplain.decode_eq, ← h.instant_eq]
    exact h.position.decode_text hdropPosition
  have hroom : minLength ≤ again.length := by
    have hminimum : minLength = 30 := rfl
    have hwidth : nameWidth = 9 := rfl
    omega
  rw [decode_eq hroom]
  dsimp only
  rw [hfield, hlive, h.decode_time hdropTime, hread, h.isName.trim_lossy_field]

end Object

/-! ## Items -/

namespace Item

variable {item : Item α} {cursor : Nat} {name position : Bytes} {live : Bool}

/-- The octets of a name that ends at the flag behind it. -/
structure IsName (name : Bytes) : Prop where
  ne_nil : name ≠ []
  length_le : name.length ≤ maxName
  not_isFlag : ∀ b ∈ name, isFlag b = false

/-- The name of an item is one, and stands behind the identifier. -/
theorem named_eq_ok (h : named payload = .ok (name, live)) : IsName name ∧ ∀ b ∈ name, b ∈ payload := by
  unfold named at h
  split at h
  · contradiction
  dsimp only at h
  split at h
  · contradiction
  next flag behind hflag =>
    split at h
    · contradiction
    next hsome =>
      obtain ⟨rfl, -⟩ := Prod.mk.inj (Except.ok.inj h)
      refine ⟨⟨mt List.isEmpty_iff.mpr hsome, ?_, fun b hb => ?_⟩, fun b hb => ?_⟩
      · have hlength := congrArg List.length hflag
        rw [List.length_drop, List.length_cons] at hlength
        have hsearched := List.length_take_le (maxName + 1) (payload.drop 1)
        omega
      · have hall := List.all_eq_true.mp List.all_takeWhile b hb
        rw [Bool.not_eq_true'] at hall
        exact hall
      · exact List.mem_of_mem_drop (List.mem_of_mem_take ((List.takeWhile_sublist _).mem hb))

/-- The octet of the flag. -/
def flag (live : Bool) : UInt8 := if live then 0x21 else 0x5F

theorem isFlag_flag (live : Bool) : isFlag (flag live) = true := by
  cases live <;> rfl

theorem flag_beq (live : Bool) : (flag live == 0x21) = live := by
  cases live <;> rfl

/-- A name is found in front of its flag. -/
theorem IsName.named_octets (h : IsName name) (live : Bool) (hposition : 19 ≤ position.length) :
    named (0x29 :: (name ++ flag live :: position)) = .ok (name, live) := by
  have hten : maxName + 1 = 10 := rfl
  have hshort := h.length_le
  have hroom : minLength ≤ (0x29 :: (name ++ flag live :: position)).length := by
    have hminimum : minLength = 19 := rfl
    rw [List.length_cons, List.length_append, List.length_cons]
    omega
  -- the octets searched end in the position if the name is shorter than it may be
  have hsearch : (name ++ flag live :: position).take (maxName + 1) =
      name ++ flag live :: position.take (maxName - name.length) := by
    rw [List.take_append, List.take_of_length_le (by omega), Nat.succ_sub hshort]
    rfl
  have hname : (name ++ flag live :: position.take (maxName - name.length)).takeWhile
      (fun b => !isFlag b) = name := by
    rw [List.takeWhile_append_of_pos, List.takeWhile_cons_of_neg, List.append_nil]
    · rw [isFlag_flag]
      exact Bool.false_ne_true
    · intro b hb
      rw [h.not_isFlag b hb]
      rfl
  unfold named
  rw [if_neg (Nat.not_lt.mpr hroom), List.drop_succ_cons, List.drop_zero, hsearch]
  dsimp only
  rw [hname, List.drop_left]
  dsimp only
  rw [if_neg (mt List.isEmpty_iff.mp h.ne_nil), flag_beq]

/-- The octets of an item: its name, its flag and its position. -/
theorem encode_text (item : Item α) :
    Utf8.encode item.text = 0x29 :: (Utf8.encode item.name ++
      flag item.live :: Utf8.encode item.report.position.text) := by
  have hflag (t : Text) : Utf8.encode ((if item.live then '!' else '_') :: t) =
      flag item.live :: Utf8.encode t := by
    cases item.live <;> exact Utf8.encode_cons_ascii (by decide) t
  show Utf8.encode (')' :: (item.name ++ _)) = _
  rw [Utf8.encode_cons_ascii (by decide), Utf8.encode_append, hflag]
  rfl

/-- The parts of an item that is read. -/
theorem decode_eq_ok (h : decode payload destination now = .ok (item, cursor)) :
    ∃ name, named payload = .ok (name, item.live) ∧ item.name = Utf8.lossy name ∧
      (PositionReport.decode payload (name.length + 2) destination now).1 = item.report := by
  rw [decode_eq] at h
  cases hnamed : named payload with
  | error cause =>
    rw [hnamed] at h
    contradiction
  | ok read =>
    rw [hnamed] at h
    obtain ⟨rfl, -⟩ := Prod.mk.inj (Except.ok.inj h)
    exact ⟨read.1, rfl, rfl, rfl⟩

/-- An item of which every field is read from its text as it is. The altitude is not in it. -/
structure Settled (item : Item α) (now : Instant) : Prop where
  isName : IsName (Utf8.encode item.name)
  position : item.report.position.withoutAltitude.Settled
  instant_eq : item.report.position.instant = now

/-- **An item that was read is settled**, if it was read from octets of ASCII without a fault. -/
theorem settled_of_decode [Scalar.Accurate α] (hascii : ∀ b ∈ payload, b.toNat < 0x80)
    (h : decode payload destination now = .ok (item, cursor))
    (hposition : item.report.fault = none) (hsource : item.report.source = .uncompressed) :
    item.Settled now := by
  obtain ⟨name, hnamed, hitem, hreport⟩ := decode_eq_ok h
  obtain ⟨hisName, hmem⟩ := named_eq_ok hnamed
  obtain ⟨hsettled, hinstant⟩ := PositionReport.settled_of_decode hascii hreport hposition hsource
  refine ⟨?_, hsettled, hinstant⟩
  have hoctets : ∀ b ∈ name, b.toNat < 0x80 := fun b hb => hascii b (hmem b hb)
  rw [hitem, Utf8.lossy_ascii hoctets, Utf8.encode_map_charOfByte hoctets]
  exact hisName

/-- **A settled item is read from its text**, but for what the comment told. -/
theorem Settled.decode_text (h : item.Settled now) (destination : Callsign) :
    decode (Utf8.encode item.text) destination now =
      .ok (⟨item.name, item.live, .plain item.report.position.withoutAltitude .uncompressed⟩,
        (Utf8.encode item.text).length) := by
  have hoctets := encode_text item
  have hposition : (Utf8.encode item.report.position.text).length = 19 := h.position.length_encode_text
  have hnamed : named (Utf8.encode item.text) = .ok (Utf8.encode item.name, item.live) := by
    rw [hoctets]
    exact h.isName.named_octets item.live (Nat.le_of_eq hposition.symm)
  have hplain : Payload.Plain (Utf8.encode item.text) := by
    rw [hoctets]
    show charOfByte 0x29 ∉ _
    decide
  have hdrop : (Utf8.encode item.text).drop ((Utf8.encode item.name).length + 2) =
      Utf8.encode item.report.position.text := by
    rw [hoctets]
    show (Utf8.encode item.name ++ flag item.live :: _).drop ((Utf8.encode item.name).length + 1) = _
    rw [List.drop_length_add_append]
    rfl
  have hread : PositionReport.decode (Utf8.encode item.text) ((Utf8.encode item.name).length + 2)
      destination now =
      (.plain item.report.position.withoutAltitude .uncompressed, (Utf8.encode item.text).length) := by
    rw [hplain.decode_eq, ← h.instant_eq]
    exact h.position.decode_text hdrop
  rw [decode_eq, hnamed, Except.map]
  dsimp only
  rw [hread, Utf8.lossy_encode]

end Item

/-! ## Both -/

/-- **Objects and items of ASCII are read from their texts as they were**, if their positions were
uncompressed and read without a fault, and the timestamp of an object too, in a form without a month. Only
what the comment told about the position is not sent on: its extension and its altitude. -/
theorem reread_of_ascii [Scalar.Accurate α] (hascii : ∀ b ∈ payload, b.toNat < 0x80)
    (destination destination' : Callsign) (now : Instant) :
    (∀ (object : Object α) (cursor : Nat),
      Object.decode payload destination now = .ok (object, cursor) →
      object.report.fault = none → object.report.source = .uncompressed →
      object.time.fault = none → object.time.format ≠ some .monthDayHourMinute →
      Object.decode (Utf8.encode object.text) destination' now =
        .ok (⟨object.name, object.live, object.time,
          .plain object.report.position.withoutAltitude .uncompressed⟩,
          (Utf8.encode object.text).length)) ∧
    (∀ (item : Item α) (cursor : Nat),
      Item.decode payload destination now = .ok (item, cursor) →
      item.report.fault = none → item.report.source = .uncompressed →
      Item.decode (Utf8.encode item.text) destination' now =
        .ok (⟨item.name, item.live, .plain item.report.position.withoutAltitude .uncompressed⟩,
          (Utf8.encode item.text).length)) := by
  constructor
  · intro object cursor h hposition hsource htime hformat
    exact (Object.settled_of_decode hascii h hposition hsource htime hformat).decode_text destination'
  · intro item cursor h hposition hsource
    exact (Item.settled_of_decode hascii h hposition hsource).decode_text destination'

/-- The ambiguity of a position is sent on but not its altitude, and a name may hold and end with blanks. -/
theorem reread_of_ascii_ambiguous :
    (∃ (object : Object Exact) (cursor : Nat),
      Object.decode (Utf8.encode ";LEADER   _092345/4903.  N/07201.75W>088/036/A=001234".toList)
        (Callsign.parse "APRS".toList) .epoch = .ok (object, cursor) ∧
      object.text = ";LEADER   _092345/4903.  N/07201.  W>".toList ∧
      Object.decode (Utf8.encode object.text) (Callsign.parse "APRS".toList) .epoch =
        .ok (⟨object.name, object.live, object.time,
          .plain object.report.position.withoutAltitude .uncompressed⟩,
          (Utf8.encode object.text).length)) ∧
    ∃ (item : Item Exact) (cursor : Nat),
      Item.decode (Utf8.encode ")AID  #2 !0000.00S/18000.00E\\ first aid /A=000010".toList)
        (Callsign.parse "APRS".toList) .epoch = .ok (item, cursor) ∧
      item.text = ")AID  #2 !0000.00S/18000.00E\\".toList ∧
      Item.decode (Utf8.encode item.text) (Callsign.parse "APRS".toList) .epoch =
        .ok (⟨item.name, item.live, .plain item.report.position.withoutAltitude .uncompressed⟩,
          (Utf8.encode item.text).length) := by
  have hobject : ∀ b ∈ Utf8.encode ";LEADER   _092345/4903.  N/07201.75W>088/036/A=001234".toList,
      b.toNat < 0x80 := by
    decide +kernel
  have hitem : ∀ b ∈ Utf8.encode ")AID  #2 !0000.00S/18000.00E\\ first aid /A=000010".toList,
      b.toNat < 0x80 := by
    decide +kernel
  constructor
  · refine ⟨_, _, Object.decode_eq (by decide +kernel), by decide +kernel, ?_⟩
    exact (reread_of_ascii (α := Exact) hobject (Callsign.parse "APRS".toList) _ .epoch).1 _ _
      (Object.decode_eq (by decide +kernel)) (by decide +kernel) (by decide +kernel) (by decide +kernel)
      (by decide +kernel)
  · refine ⟨_, _, rfl, by decide +kernel, ?_⟩
    exact (reread_of_ascii (α := Exact) hitem (Callsign.parse "APRS".toList) _ .epoch).2 _ _ rfl (by decide +kernel)
      (by decide +kernel)

end Aprs
