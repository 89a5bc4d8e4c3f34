import Aprs.Message
import Aprs.Proofs.Text
import Aprs.Proofs.Utf8

/-!
# Messages that are sent on

A message that was read is written again, with its addressee padded to nine characters. The field of the
addressee ends at the first colon behind its first octet, so the addressee of a message that was read holds
no colon but as its first character, and is trimmed and in upper case (`Addressable`). Such an addressee is
read as itself from the field it is written in, and the body behind it is read as what it is:

> `decode_written`: the message in a written text is that of its body and for its addressee.

The parts of a body are the body again (`join_parts`). A message that is no answer is therefore read as it
was (`reread_of_plain`). An answer is written without the acknowledgement it carries along, and its number
behind the word without a brace, where only a short one of letters and digits is taken for a number
(`reread_of_answer_iff`).

Specification: 12.6 (Messages).
-/

namespace Aprs.Message

variable {addressee body number t : Text} {c : Char} {m : Message} {payload : Bytes}

/-! ## Addressees -/

/-- An addressee that can be told from the field it is written in. -/
structure Addressable (addressee : Text) : Prop where
  trim_eq : Text.trim addressee = addressee
  upper_eq : Text.upper addressee = addressee
  colon_notMem : ':' ∉ addressee.tail

/-- Upper-casing puts no colon behind the first character. -/
theorem colon_notMem_upper (h : ':' ∉ t.tail) : ':' ∉ (Text.upper t).tail := by
  intro hcolon
  cases t with
  | nil => exact h hcolon
  | cons c rest =>
    by_cases hc : c = ':'
    · have hupper : Text.upper (c :: rest) = ':' :: Text.upper rest := by
        rw [hc]
        rfl
      rw [hupper] at hcolon
      exact h (Text.colon_mem_of_upper hcolon)
    · rcases List.mem_cons.mp (Text.colon_mem_of_upper (List.mem_of_mem_tail hcolon)) with heq | hrest
      · exact hc heq.symm
      · exact h hrest

/-- A colon behind the first character stands for a colon behind the first octet. -/
theorem colon_notMem_lossy {a : UInt8} {more : Bytes} (h : 0x3A ∉ more) :
    ':' ∉ (Utf8.lossy (a :: more)).tail := by
  intro hcolon
  by_cases ha : a = 0x3A
  · rw [ha] at hcolon
    exact h (Utf8.ofNat_mem_of_mem_lossy (by decide) hcolon)
  · rcases List.mem_cons.mp (Utf8.ofNat_mem_of_mem_lossy (by decide) (List.mem_of_mem_tail hcolon)) with
      heq | hmore
    · exact ha heq.symm
    · exact h hmore

/-- **The addressee of a message that was read can be told from its field.** -/
theorem addressable_of_octets (a : UInt8) {more : Bytes} (h : 0x3A ∉ more) :
    Addressable (Text.upper (Text.trim (Utf8.lossy (a :: more)))) where
  trim_eq := Text.trim_upper (Text.trim_trim _)
  upper_eq := Text.upper_upper _
  colon_notMem := colon_notMem_upper (mt (Text.trim_sublist _).tail.mem (colon_notMem_lossy h))

/-- A text without a colon behind its first character has none behind its first octet. -/
theorem exists_octets (hne : t ≠ []) (h : ':' ∉ t.tail) :
    ∃ a more, Utf8.encode t = a :: more ∧ 0x3A ∉ more := by
  cases t with
  | nil => exact absurd rfl hne
  | cons c rest =>
    have hrest : 0x3A ∉ Utf8.encode rest := fun hmem => h ((Utf8.ofNat_mem_encode_iff (by decide)).mp hmem)
    by_cases hascii : c.toNat < 0x80
    · exact ⟨_, _, Utf8.encode_cons_ascii hascii rest, hrest⟩
    · have hbeyond := Utf8.octets_of_not_ascii (Nat.le_of_not_lt hascii)
      obtain ⟨a, octets, hchar⟩ := List.exists_cons_of_ne_nil (Utf8.encodeChar_ne_nil c)
      rw [Utf8.encode_cons, hchar]
      rw [hchar] at hbeyond
      refine ⟨a, octets ++ Utf8.encode rest, rfl, fun hcolon => ?_⟩
      rcases List.mem_append.mp hcolon with hoctets | hcolon
      · exact absurd (hbeyond 0x3A (List.mem_cons_of_mem a hoctets)) (by decide)
      · exact hrest hcolon

/-- The field of an addressee holds no colon but as its first character. -/
theorem Addressable.colon_notMem_field (h : Addressable addressee) :
    ':' ∉ (padRight addresseeWidth addressee).tail := by
  have hblank {n : Nat} : ':' ∉ List.replicate n ' ' := by
    intro hcolon
    exact absurd (List.eq_of_mem_replicate hcolon) (by decide)
  unfold padRight
  cases addressee with
  | nil => exact mt List.mem_of_mem_tail hblank
  | cons c rest =>
    intro hcolon
    rcases List.mem_append.mp hcolon with hrest | hpadding
    · exact h.colon_notMem hrest
    · exact hblank hpadding

theorem padRight_ne_nil (t : Text) : padRight addresseeWidth t ≠ [] := by
  have hwidth : 9 ≤ (padRight addresseeWidth t).length := Text.le_length_padRight addresseeWidth t
  exact List.ne_nil_of_length_pos (Nat.lt_of_lt_of_le (by decide) hwidth)

/-- The blanks behind an addressee are not read as a part of it. -/
theorem Addressable.upper_trim_field (h : Addressable addressee) :
    Text.upper (Text.trim (padRight addresseeWidth addressee)) = addressee := by
  rw [padRight, Text.trim_padding, h.trim_eq, h.upper_eq]

/-! ## Written messages -/

/-- **A written message is read** as the message in its body, for the addressee it was written for. -/
theorem decode_written (h : Addressable addressee) (body : Text) :
    (decode (Utf8.encode (':' :: padRight addresseeWidth addressee ++ [':'] ++ body))).1 =
      ofText addressee body := by
  obtain ⟨a, more, hfield, hcolon⟩ := exists_octets (padRight_ne_nil addressee) h.colon_notMem_field
  have hoctets : Utf8.encode (':' :: padRight addresseeWidth addressee ++ [':'] ++ body) =
      0x3A :: a :: (more ++ 0x3A :: Utf8.encode body) := by
    rw [List.cons_append, List.cons_append, List.append_assoc, Utf8.encode_cons, Utf8.encode_append, hfield]
    rfl
  rw [hoctets]
  unfold decode
  dsimp only
  rw [cutFirst_append hcolon]
  dsimp only
  rw [← hfield, Utf8.lossy_encode, Utf8.lossy_encode, h.upper_trim_field]

/-- A message that was read has nothing in it but a fault, or it is that of some body, for an addressee that
can be told from its field. -/
theorem decode_cases (payload : Bytes) :
    (∃ fault, (decode payload).1 = { empty with fault := some fault }) ∨
      ∃ addressee body, Addressable addressee ∧ (decode payload).1 = ofText addressee body := by
  unfold decode
  split
  · next a rest =>
    split
    · exact Or.inl ⟨_, rfl⟩
    · next field body hcut => exact Or.inr ⟨_, _, addressable_of_octets a (cutFirst_eq_some hcut).2, rfl⟩
  · exact Or.inl ⟨_, rfl⟩

/-! ## The parts of a body -/

/-- A body is its parts put together again, of which the number holds no brace. -/
theorem join_parts {behind replyAck : Option Text} (h : parts t = (body, behind, replyAck))
    (addressee : Text) :
    body ++ numberText ⟨addressee, body, behind, replyAck, false, false, none⟩ = t ∧
      '\x7b' ∉ behind.getD [] := by
  unfold parts at h
  cases hlast : cutLast '\x7b' t with
  | none =>
    rw [hlast] at h
    cases h
    exact ⟨List.append_nil _, List.not_mem_nil⟩
  | some cut =>
    obtain ⟨front, rest⟩ := cut
    obtain ⟨rfl, hbrace⟩ := cutLast_eq_some hlast
    rw [hlast] at h
    dsimp only at h
    cases hfirst : cutFirst '\x7d' rest with
    | none =>
      rw [hfirst] at h
      cases h
      refine ⟨?_, hbrace⟩
      show body ++ '\x7b' :: (rest ++ []) = body ++ '\x7b' :: rest
      rw [List.append_nil]
    | some cut =>
      obtain ⟨number, carried⟩ := cut
      obtain ⟨rfl, -⟩ := cutFirst_eq_some hfirst
      rw [hfirst] at h
      cases h
      exact ⟨rfl, fun hmem => hbrace (List.mem_append_left _ hmem)⟩

/-- A body without a brace has no parts. -/
theorem parts_eq_self (h : '\x7b' ∉ t) : parts t = (t, none, none) := by
  unfold parts
  rw [cutLast_eq_none_iff.mpr h]

section Answers

variable {answer : Answer} {replyAck : Option Text} {behind : Option Text}

/-- A text that is no answer is a message. -/
theorem ofText_of_answer?_eq_none (hparts : parts t = (body, behind, replyAck))
    (hanswer : answer? body = none) :
    ofText addressee t = ⟨addressee, body, behind, replyAck, false, false, none⟩ := by
  unfold ofText
  rw [hparts]
  dsimp only
  rw [hanswer]

/-- A text that is an answer has its word and its number. -/
theorem ofText_of_answer?_eq_some (hparts : parts t = (body, behind, replyAck))
    (hanswer : answer? body = some (answer, number)) :
    ofText addressee t =
      { addressee
        body := body.take 3
        number := if number.isEmpty then behind else some number
        replyAck
        isAck := answer = .ack
        isRej := answer = .rej
        fault := none } := by
  unfold ofText
  rw [hparts]
  dsimp only
  rw [hanswer]

/-- The word of an answer. -/
def Answer.word : Answer → Text
  | .ack => "ack".toList
  | .rej => "rej".toList

/-- What is taken for the number of an answer where it stands behind the word. -/
structure IsAckNumber (number : Text) : Prop where
  size_le : Utf8.size number ≤ maxAckNumber
  alphanum : ∀ c ∈ number, c.isAlphanum = true

theorem isAckNumber_iff : IsAckNumber number ↔
    ¬ (maxAckNumber < Utf8.size number ∨ number.any (fun c => !c.isAlphanum) = true) := by
  rw [not_or, Nat.not_lt, Bool.not_eq_true, List.any_eq_false]
  constructor
  · intro h
    refine ⟨h.size_le, fun c hc => ?_⟩
    rw [h.alphanum c hc]
    exact Bool.false_ne_true
  · intro h
    refine ⟨h.1, fun c hc => ?_⟩
    have hnot := h.2 c hc
    rw [Bool.not_eq_true, Bool.not_eq_false'] at hnot
    exact hnot

theorem splitAt?_word (answer : Answer) (number : Text) :
    Utf8.splitAt? 3 (answer.word ++ number) = some (answer.word, number) := by
  cases answer with
  | ack => simp [Answer.word, Utf8.splitAt?, Char.utf8Size]
  | rej => simp [Answer.word, Utf8.splitAt?, Char.utf8Size]

/-- A word with a number behind it is an answer if the number is one. -/
theorem answer?_word (answer : Answer) (number : Text) :
    answer? (answer.word ++ number) =
      if maxAckNumber < Utf8.size number ∨ number.any (fun c => !c.isAlphanum) then none
      else some (answer, number) := by
  unfold answer?
  rw [splitAt?_word, Option.bind_some]
  cases answer with
  | ack => rfl
  | rej => rfl

/-- Behind the word of an answer, exactly the number of one makes the body an answer. -/
theorem answer?_eq_some_of_word (h : IsAckNumber number) :
    answer? (answer.word ++ number) = some (answer, number) := by
  rw [answer?_word, if_neg (isAckNumber_iff.mp h)]

theorem answer?_eq_none_of_word (h : ¬ IsAckNumber number) : answer? (answer.word ++ number) = none := by
  rw [answer?_word]
  exact if_pos (Decidable.byContradiction fun hguard => h (isAckNumber_iff.mpr hguard))

theorem isAckNumber_of_answer? (h : answer? body = some (answer, number)) : IsAckNumber number := by
  obtain ⟨⟨word, behind⟩, -, h⟩ := Option.bind_eq_some_iff.mp h
  dsimp only at h
  split at h
  · contradiction
  · next hguard =>
    split at h
    · obtain ⟨-, rfl⟩ := Prod.mk.inj (Option.some.inj h)
      exact isAckNumber_iff.mpr hguard
    split at h
    · obtain ⟨-, rfl⟩ := Prod.mk.inj (Option.some.inj h)
      exact isAckNumber_iff.mpr hguard
    · contradiction

/-- An answer has the number behind its word, or else the one behind the brace. There is no other brace in it. -/
theorem brace_notMem_number (hparts : parts t = (body, behind, replyAck))
    (hanswer : answer? body = some (answer, number)) :
    '\x7b' ∉ (if number.isEmpty then behind else some number).getD [] := by
  by_cases hempty : number.isEmpty
  · rw [if_pos hempty]
    exact (join_parts hparts []).2
  · rw [if_neg hempty]
    intro hbrace
    exact absurd ((isAckNumber_of_answer? hanswer).alphanum _ hbrace) (by decide)

/-! ## Messages that are read again -/

/-- A message that is no answer is written with the body that it was taken from. -/
theorem text_of_parts (h : parts t = (body, behind, replyAck)) :
    text ⟨addressee, body, behind, replyAck, false, false, none⟩ =
      ':' :: padRight addresseeWidth addressee ++ [':'] ++ t := by
  have htext : text ⟨addressee, body, behind, replyAck, false, false, none⟩ =
      ':' :: padRight addresseeWidth addressee ++ [':'] ++ body ++
        numberText ⟨addressee, body, behind, replyAck, false, false, none⟩ := rfl
  rw [htext, List.append_assoc, (join_parts h addressee).1]

/-- **A message that is no answer is read as it was.** -/
theorem reread_of_plain (hfault : (decode payload).1.fault = none) (hack : (decode payload).1.isAck = false)
    (hrej : (decode payload).1.isRej = false) :
    (decode (Utf8.encode (decode payload).1.text)).1 = (decode payload).1 := by
  rcases decode_cases payload with ⟨fault, heq⟩ | ⟨addressee, t, haddressee, heq⟩
  · rw [heq] at hfault
    contradiction
  rw [heq] at hack hrej ⊢
  obtain ⟨⟨body, behind, replyAck⟩, hparts⟩ : ∃ p, parts t = p := ⟨_, rfl⟩
  cases hanswer : answer? body with
  | some found =>
    obtain ⟨answer, number⟩ := found
    rw [ofText_of_answer?_eq_some hparts hanswer] at hack hrej
    cases answer <;> contradiction
  | none =>
    have htext : (ofText addressee t).text = ':' :: padRight addresseeWidth addressee ++ [':'] ++ t := by
      rw [ofText_of_answer?_eq_none hparts hanswer, text_of_parts hparts]
    rw [htext]
    exact decode_written haddressee t

/-- Braces in the body, a colon before the addressee and octets that are no character are read as they were. -/
theorem reread_of_plain_braces :
    (decode (Utf8.encode (decode
      [0x3A, 0x3A, 0x61, 0xFF, 0x3A, 0x61, 0x63, 0x6B, 0x7B, 0x7D, 0x7B, 0x31, 0x7D, 0x7D]).1.text)).1 =
        ⟨":A\uFFFD".toList, "ack\x7b\x7d".toList, some "1".toList, some "\x7d".toList, false, false, none⟩ :=
  (reread_of_plain (by decide +kernel) (by decide +kernel) (by decide +kernel)).trans (by decide +kernel)

/-- That a message answers as another one does: with the same word, for the same addressee, to the same
number, and with the same acknowledgement carried along. An empty number is none. -/
structure SameAnswer (m m' : Message) : Prop where
  isAck_eq : m'.isAck = m.isAck
  isRej_eq : m'.isRej = m.isRej
  addressee_eq : m'.addressee = m.addressee
  number_eq : m'.number.getD [] = m.number.getD []
  replyAck_eq : m'.replyAck = m.replyAck

/-- An answer that was read has a word, and its number holds no brace. -/
theorem exists_answer (h : (decode payload).1.isAck = true ∨ (decode payload).1.isRej = true) :
    ∃ answer : Answer, (decode payload).1.isAck = decide (answer = .ack) ∧
      (decode payload).1.isRej = decide (answer = .rej) ∧ Addressable (decode payload).1.addressee ∧
      '\x7b' ∉ (decode payload).1.number.getD [] := by
  rcases decode_cases payload with ⟨fault, heq⟩ | ⟨addressee, t, haddressee, heq⟩
  · rw [heq] at h
    rcases h with hack | hrej <;> contradiction
  rw [heq] at h ⊢
  obtain ⟨⟨body, behind, replyAck⟩, hparts⟩ : ∃ p, parts t = p := ⟨_, rfl⟩
  cases hanswer : answer? body with
  | none =>
    rw [ofText_of_answer?_eq_none hparts hanswer] at h
    rcases h with hack | hrej <;> contradiction
  | some found =>
    obtain ⟨answer, number⟩ := found
    rw [ofText_of_answer?_eq_some hparts hanswer]
    exact ⟨answer, rfl, rfl, haddressee, brace_notMem_number hparts hanswer⟩

/-- An answer is written with its number right behind the word. -/
theorem text_of_answer (hack : m.isAck = decide (answer = .ack)) (hrej : m.isRej = decide (answer = .rej)) :
    m.text = ':' :: padRight addresseeWidth m.addressee ++ [':'] ++ (answer.word ++ m.number.getD []) := by
  unfold text
  rw [hack, hrej]
  cases answer with
  | ack => exact List.append_assoc _ _ _
  | rej => exact List.append_assoc _ _ _

/-- **An answer is read as the same answer exactly if** it carries along no acknowledgement, and its number is
one that can stand right behind the word. -/
theorem reread_of_answer_iff (h : (decode payload).1.isAck = true ∨ (decode payload).1.isRej = true) :
    SameAnswer (decode payload).1 (decode (Utf8.encode (decode payload).1.text)).1 ↔
      IsAckNumber ((decode payload).1.number.getD []) ∧ (decode payload).1.replyAck = none := by
  obtain ⟨answer, hack, hrej, haddressee, hbrace⟩ := exists_answer h
  generalize (decode payload).1 = m at hack hrej haddressee hbrace ⊢
  -- without a brace all of what is written is the body
  have hword : '\x7b' ∉ answer.word ++ m.number.getD [] := by
    intro hmem
    rcases List.mem_append.mp hmem with hmem | hmem
    · cases answer <;> exact absurd hmem (by decide)
    · exact hbrace hmem
  rw [text_of_answer hack hrej, decode_written haddressee]
  by_cases hnumber : IsAckNumber (m.number.getD [])
  · rw [ofText_of_answer?_eq_some (parts_eq_self hword) (answer?_eq_some_of_word hnumber)]
    constructor
    · intro hsame
      exact ⟨hnumber, hsame.replyAck_eq.symm⟩
    · intro hnone
      refine ⟨hack.symm, hrej.symm, rfl, ?_, hnone.2.symm⟩
      dsimp only
      split
      · next hempty => exact (List.isEmpty_iff.mp hempty).symm
      · rfl
  · rw [ofText_of_answer?_eq_none (parts_eq_self hword) (answer?_eq_none_of_word hnumber)]
    constructor
    · intro hsame
      have hnoAck := hsame.isAck_eq.trans hack
      have hnoRej := hsame.isRej_eq.trans hrej
      cases answer <;> contradiction
    · intro hnone
      exact absurd hnone.1 hnumber

/-- An acknowledgement with its number behind a brace is read as the same one. -/
theorem reread_of_answer_braced :
    SameAnswer (decode (Utf8.encode ":TARGET   :ack\x7b12".toList)).1
      (decode (Utf8.encode (decode (Utf8.encode ":TARGET   :ack\x7b12".toList)).1.text)).1 :=
  (reread_of_answer_iff (Or.inl (by decide +kernel))).mpr
    ⟨isAckNumber_iff.mpr (by decide +kernel), by decide +kernel⟩

/-- It is not the same one if it carries along another one, or if its number has more than five characters:
then it is no acknowledgement any more. -/
theorem reread_of_answer_differs :
    ((decode (Utf8.encode ":TARGET   :ack\x7b12\x7dAA".toList)).1.isAck = true ∧
      ¬ SameAnswer (decode (Utf8.encode ":TARGET   :ack\x7b12\x7dAA".toList)).1
        (decode (Utf8.encode (decode (Utf8.encode ":TARGET   :ack\x7b12\x7dAA".toList)).1.text)).1) ∧
    ((decode (Utf8.encode ":TARGET   :ack\x7b123456".toList)).1.isAck = true ∧
      ¬ SameAnswer (decode (Utf8.encode ":TARGET   :ack\x7b123456".toList)).1
        (decode (Utf8.encode (decode (Utf8.encode ":TARGET   :ack\x7b123456".toList)).1.text)).1) := by
  refine ⟨⟨by decide +kernel, fun hsame => ?_⟩, ⟨by decide +kernel, fun hsame => ?_⟩⟩
  · exact absurd hsame.replyAck_eq (by decide +kernel)
  · exact absurd hsame.isAck_eq (by decide +kernel)

end Answers

end Aprs.Message
