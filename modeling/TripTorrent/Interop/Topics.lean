import TripTorrent.Codec.Outcome
import TripTorrent.Interop.Magnet

/-!
# Spellings of exact topics

A v1 torrent is named in a link by its hash, in hexadecimal or in base 32, and in letters of either
case. All of them are read as the same hash, which is kept in lower-case hexadecimal.

The base-32 decoder shifts symbols into an accumulator and takes bytes out at the other end. At most
seven bits stay behind, so that the accumulator is never full.
-/

namespace TripTorrent.Interop

open Codec

variable {value : String} {magnet : Magnet}

/-! ## Texts -/

theorem toList_toAsciiLowercase (value : String) :
    (toAsciiLowercase value).toList = value.toList.map Char.toLower := by
  rw [toAsciiLowercase, String.toList_ofList]

theorem stripPrefix_eq_some_iff {pattern rest : String} :
    stripPrefix value pattern = some rest ↔ value = pattern ++ rest := by
  rw [stripPrefix, Option.map_eq_some_iff]
  simp only [List.dropPrefix?_eq_some_iff]
  constructor
  · rintro ⟨chars, ⟨start, hvalue, hstart⟩, rfl⟩
    rw [← String.toList_inj, hvalue, String.toList_append, String.toList_ofList,
      (beq_iff_eq.mp hstart)]
  · rintro rfl
    exact ⟨rest.toList, ⟨pattern.toList, String.toList_append, beq_self_eq_true _⟩,
      String.ofList_toList⟩

theorem utf8_ofList_of_ascii {chars : List Char} (h : ∀ c ∈ chars, c.toNat < 128) :
    utf8 (String.ofList chars) = chars.map Char.toUInt8 := by
  rw [utf8_ofList, utf8_of_ascii h]

theorem utf8ByteSize_ofList {chars : List Char} (h : ∀ c ∈ chars, c.toNat < 128) :
    (String.ofList chars).utf8ByteSize = chars.length := by
  rw [← length_utf8, utf8_ofList_of_ascii h, List.length_map]

/-! ## The decoder -/

/-- The symbol for five bits, as it is read. -/
def base32Byte (digit : ℕ) : UInt8 := (base32Symbol digit).toLower.toUInt8

theorem toNat_base32Byte {digit : ℕ} (h : digit < 32) :
    (base32Byte digit).toNat = if digit < 26 then 97 + digit else 24 + digit := by
  have hall : ∀ digit ∈ List.range 32,
      (base32Byte digit).toNat = if digit < 26 then 97 + digit else 24 + digit := by decide
  exact hall digit (List.mem_range.mpr h)

theorem base32Value_eq_ok_iff {byte : UInt8} {digit : ℕ} :
    base32Value byte = .ok digit ↔ digit < 32 ∧ byte = base32Byte digit := by
  have ha : 'a'.toUInt8.toNat = 97 ∧ 'z'.toUInt8.toNat = 122 ∧ 'a'.toNat = 97 := by decide
  have htwo : '2'.toUInt8.toNat = 50 ∧ '7'.toUInt8.toNat = 55 ∧ '2'.toNat = 50 := by decide
  rw [base32Value]
  simp only [UInt8.le_iff_toNat_le, ha, htwo]
  constructor
  · intro h
    split_ifs at h with hletter hnumber
    · obtain rfl := Except.ok.inj h
      refine ⟨by omega, UInt8.toNat_inj.mp ?_⟩
      rw [toNat_base32Byte (by omega), if_pos (by omega)]
      omega
    · obtain rfl := Except.ok.inj h
      refine ⟨by omega, UInt8.toNat_inj.mp ?_⟩
      rw [toNat_base32Byte (by omega), if_neg (by omega)]
      omega
  · rintro ⟨hdigit, rfl⟩
    rw [toNat_base32Byte hdigit]
    by_cases hletter : digit < 26
    · rw [if_pos hletter, if_pos (by omega), Nat.add_sub_cancel_left]
    · rw [if_neg hletter, if_neg (by omega), if_pos (by omega)]
      exact congrArg Except.ok (by omega)

namespace Base32Decoder

/-- The state after the digits read. -/
def Has (state : Base32Decoder) (digits : List ℕ) : Prop :=
  Repacked digits state.decoded state.accumulator state.bits

variable {state state' : Base32Decoder} {digits : List ℕ} {digit : ℕ} {bytes : List UInt8}

/-- There is room for another symbol. -/
theorem Has.room (h : state.Has digits) :
    state.accumulator <<< 5 < 2 ^ 32 ∧ state.bits + 5 < 2 ^ 8 := by
  have hlt := h.bits_lt
  have hpending : state.accumulator < 2 ^ 8 :=
    h.pending_lt.trans (Nat.pow_lt_pow_right one_lt_two hlt)
  rw [Nat.shiftLeft_eq]
  omega

theorem Has.step (h : state.Has digits) (hdigit : digit < 32) :
    ∃ state', state.step (base32Byte digit) = .ok state' ∧ state'.Has (digits ++ [digit]) := by
  have hvalue : base32Value (base32Byte digit) = .ok digit :=
    base32Value_eq_ok_iff.mpr ⟨hdigit, rfl⟩
  have hshift : (state.accumulator <<< 5) % 2 ^ 32 ||| digit = state.accumulator * 32 + digit := by
    rw [Nat.mod_eq_of_lt h.room.1, ← Nat.shiftLeft_add_eq_or_of_lt hdigit, Nat.shiftLeft_eq]
  rw [Base32Decoder.step, hvalue]
  simp only [bind, Except.bind, hshift]
  split_ifs with hbits
  · refine ⟨_, rfl, ?_⟩
    rw [Has, Nat.one_shiftLeft, Nat.and_two_pow_sub_one_eq_mod, Nat.shiftRight_eq_div_pow]
    exact h.putOut hdigit (by omega)
  · exact ⟨_, rfl, h.keep hdigit (by omega)⟩

theorem exists_of_step {byte : UInt8} (h : state.step byte = .ok state') :
    ∃ digit < 32, byte = base32Byte digit := by
  obtain ⟨digit, hdigit, -⟩ := Outcome.bind_eq_ok_iff.mp h
  exact ⟨digit, base32Value_eq_ok_iff.mp hdigit⟩

/-- The symbols of digits are read. -/
theorem Has.foldlM (h : state.Has digits) {more : List ℕ} (hmore : ∀ digit ∈ more, digit < 32) :
    ∃ state', (more.map base32Byte).foldlM Base32Decoder.step state = .ok state' ∧
      state'.Has (digits ++ more) := by
  induction more generalizing state digits with
  | nil => exact ⟨state, rfl, by rwa [List.append_nil]⟩
  | cons digit more ih =>
    rw [List.forall_mem_cons] at hmore
    obtain ⟨next, hnext, hhas⟩ := h.step hmore.1
    obtain ⟨state', hstate', hhas'⟩ := ih hhas hmore.2
    refine ⟨state', ?_, ?_⟩
    · rw [List.map_cons, List.foldlM_cons, hnext]
      exact hstate'
    · rwa [List.append_assoc, List.singleton_append] at hhas'

/-- What is read are symbols of digits. -/
theorem exists_of_foldlM (h : bytes.foldlM Base32Decoder.step state = .ok state') :
    ∃ digits : List ℕ, (∀ digit ∈ digits, digit < 32) ∧ bytes = digits.map base32Byte := by
  induction bytes generalizing state with
  | nil => exact ⟨[], List.forall_mem_nil _, rfl⟩
  | cons byte bytes ih =>
    rw [List.foldlM_cons] at h
    obtain ⟨next, hnext, hrest⟩ := Outcome.bind_eq_ok_iff.mp h
    obtain ⟨digit, hdigit, rfl⟩ := exists_of_step hnext
    obtain ⟨digits, hdigits, rfl⟩ := ih hrest
    exact ⟨digit :: digits, List.forall_mem_cons.mpr ⟨hdigit, hdigits⟩, rfl⟩

theorem run_eq_ok (hdigits : ∀ digit ∈ digits, digit < 32) :
    ∃ state, run (digits.map base32Byte) = .ok state ∧ state.Has digits := by
  have hstart : Has ⟨0, 0, []⟩ [] := Repacked.nil
  obtain ⟨state, hrun, hhas⟩ := hstart.foldlM hdigits
  exact ⟨state, hrun, hhas⟩

theorem has_of_run (h : run bytes = .ok state) :
    ∃ digits : List ℕ, (∀ digit ∈ digits, digit < 32) ∧ bytes = digits.map base32Byte ∧
      state.Has digits := by
  obtain ⟨digits, hdigits, rfl⟩ := exists_of_foldlM h
  obtain ⟨state', hrun, hhas⟩ := run_eq_ok hdigits
  obtain rfl := Except.ok.inj (hrun.symm.trans h)
  exact ⟨digits, hdigits, rfl, hhas⟩

end Base32Decoder

/-! ## Base 32 -/

/-- The lower-case base-32 text of digits. -/
theorem utf8_base32 {digits : List ℕ} (h : ∀ digit ∈ digits, digit < 32) :
    utf8 (String.ofList ((digits.map base32Symbol).map Char.toLower)) =
      digits.map base32Byte := by
  have hall : ∀ digit ∈ List.range 32, (base32Symbol digit).toLower.toNat < 128 := by decide
  rw [utf8_ofList_of_ascii, List.map_map, List.map_map]
  · rfl
  · rw [List.map_map]
    intro c hc
    obtain ⟨digit, hdigit, rfl⟩ := List.mem_map.mp hc
    exact hall digit (List.mem_range.mpr (h digit hdigit))

/-- Twenty bytes are read from their base-32 text. -/
theorem decodeBase32_base32 {bytes : List UInt8} (h : bytes.length = 20) :
    decodeBase32 (String.ofList ((base32 bytes).map Char.toLower)) = .ok bytes := by
  have hfive : 5 ∣ bytes.length := ⟨4, h⟩
  have hdigits : ∀ digit ∈ base32Digits bytes, digit < 32 := fun digit ↦ lt_of_mem_base32Digits
  obtain ⟨state, hrun, hhas⟩ := Base32Decoder.run_eq_ok hdigits
  have hcount := hhas.length_eq
  have hlt := hhas.bits_lt
  rw [length_base32Digits hfive, h] at hcount
  have hbits : state.bits = 0 := by omega
  rw [Base32Decoder.Has, hbits] at hhas
  have hdecoded : bytes = state.decoded :=
    base32Digits_inj hfive (by omega) (hhas.digits_eq hdigits)
  rw [decodeBase32, base32, utf8_base32 hdigits, hrun, hdecoded]
  exact if_neg fun hbad ↦ hbad.1 hbits

/-- Thirty-two symbols that are read are the base-32 text of twenty bytes. -/
theorem base32_of_decodeBase32 {bytes : List UInt8} (hlength : value.length = 32)
    (h : decodeBase32 value = .ok bytes) :
    bytes.length = 20 ∧ value = String.ofList ((base32 bytes).map Char.toLower) := by
  obtain ⟨state, hrun, hstate⟩ := Outcome.bind_eq_ok_iff.mp h
  obtain ⟨digits, hdigits, hvalue, hhas⟩ := Base32Decoder.has_of_run hrun
  have htext : value = String.ofList ((digits.map base32Symbol).map Char.toLower) :=
    utf8_injective (hvalue.trans (utf8_base32 hdigits).symm)
  have hcount := hhas.length_eq
  have hlt := hhas.bits_lt
  rw [htext, String.length_ofList, List.length_map, List.length_map] at hlength
  have hbits : state.bits = 0 := by omega
  split_ifs at hstate
  obtain rfl := Except.ok.inj hstate
  rw [Base32Decoder.Has, hbits] at hhas
  refine ⟨by omega, ?_⟩
  rw [htext, base32, ← hhas.digits_eq hdigits]

/-! ## Topics -/

theorem toLower_hexEncode (bytes : List UInt8) :
    (hexEncode bytes).map Char.toLower = hexEncode bytes := by
  have hchars : ∀ c ∈ hexEncode bytes, c.toLower = c := forall_mem_hexEncode (by decide) bytes
  exact (List.map_congr_left hchars).trans (List.map_id _)

theorem utf8ByteSize_encodeHex (bytes : List UInt8) :
    (encodeHex bytes).utf8ByteSize = 2 * bytes.length := by
  have hascii : ∀ n < 16, (Codec.hexDigit n).toNat < 128 := by decide
  rw [encodeHex, utf8ByteSize_ofList (forall_mem_hexEncode hascii bytes), length_hexEncode]

@[simp] theorem decodeHex_encodeHex (bytes : List UInt8) :
    decodeHex (encodeHex bytes) = .ok bytes := by
  rw [decodeHex, encodeHex, String.toList_ofList, hexDecode_hexEncode]

/-- What a value under `xt` names: a v1 torrent, a v2 torrent, or something unknown. -/
inductive ExactTopic
  | btih (hash : List.Vector UInt8 20)
  | btmh (hash : List.Vector UInt8 32)
  | other (value : String)

/-- The value spells the topic, in letters of either case. -/
def ExactTopic.Spelled : ExactTopic → String → Prop
  | .btih hash, value =>
    toAsciiLowercase value = toAsciiLowercase ("urn:btih:" ++ encodeHex hash.toList) ∨
      toAsciiLowercase value =
        toAsciiLowercase ("urn:btih:" ++ String.ofList (base32 hash.toList))
  | .btmh hash, value =>
    toAsciiLowercase value =
      toAsciiLowercase ("urn:btmh:" ++ encodeHex (0x12 :: 0x20 :: hash.toList))
  | .other topic, value =>
    value = topic ∧ ∀ rest, toAsciiLowercase value ≠ "urn:btih:" ++ rest ∧
      toAsciiLowercase value ≠ "urn:btmh:" ++ rest

def Magnet.addTopic (magnet : Magnet) : ExactTopic → Magnet
  | .btih hash => { magnet with btih := magnet.btih ++ [encodeHex hash.toList] }
  | .btmh hash => { magnet with btmhSha256 := magnet.btmhSha256 ++ [encodeHex hash.toList] }
  | .other topic => { magnet with otherExactTopics := magnet.otherExactTopics ++ [topic] }

theorem toAsciiLowercase_append (a b : String) :
    toAsciiLowercase (a ++ b) = toAsciiLowercase a ++ toAsciiLowercase b := by
  rw [← String.toList_inj, toList_toAsciiLowercase, String.toList_append, List.map_append,
    String.toList_append, toList_toAsciiLowercase, toList_toAsciiLowercase]

theorem toAsciiLowercase_toAsciiLowercase (value : String) :
    toAsciiLowercase (toAsciiLowercase value) = toAsciiLowercase value := by
  rw [← String.toList_inj, toList_toAsciiLowercase, toList_toAsciiLowercase, List.map_map]
  exact List.map_congr_left fun c _ ↦ Char.toLower_toLower_eq_toLower c

theorem toAsciiLowercase_encodeHex (bytes : List UInt8) :
    toAsciiLowercase (encodeHex bytes) = encodeHex bytes := by
  rw [toAsciiLowercase, encodeHex, String.toList_ofList, toLower_hexEncode]

theorem toAsciiLowercase_ofList (chars : List Char) :
    toAsciiLowercase (String.ofList chars) = String.ofList (chars.map Char.toLower) := by
  rw [toAsciiLowercase, String.toList_ofList]

theorem utf8ByteSize_base32 {bytes : List UInt8} (h : bytes.length = 20) :
    (String.ofList ((base32 bytes).map Char.toLower)).utf8ByteSize = 32 := by
  have hdigits : ∀ digit ∈ base32Digits bytes, digit < 32 := fun digit ↦ lt_of_mem_base32Digits
  rw [← length_utf8, base32, utf8_base32 hdigits, List.length_map, length_base32Digits ⟨4, h⟩, h]

theorem toAsciiLowercase_btih : toAsciiLowercase "urn:btih:" = "urn:btih:" := by decide +kernel

theorem toAsciiLowercase_btmh : toAsciiLowercase "urn:btmh:" = "urn:btmh:" := by decide +kernel

/-- A topic is kept in its canonical form, whichever way it is spelled. -/
theorem parseExactTopic_of_spelled {topic : ExactTopic} (h : topic.Spelled value) :
    parseExactTopic value magnet = .ok (magnet.addTopic topic) := by
  rw [parseExactTopic]
  cases topic with
  | btih hash =>
    rcases h with h | h
    · rw [toAsciiLowercase_append, toAsciiLowercase_btih, toAsciiLowercase_encodeHex] at h
      rw [stripPrefix_eq_some_iff.mpr h]
      dsimp only
      rw [decodeBtih, utf8ByteSize_encodeHex, hash.toList_length, if_pos rfl, decodeHex_encodeHex]
      exact if_neg (not_not.mpr hash.toList_length)
    · rw [toAsciiLowercase_append, toAsciiLowercase_btih, toAsciiLowercase_ofList] at h
      rw [stripPrefix_eq_some_iff.mpr h]
      dsimp only
      rw [decodeBtih, utf8ByteSize_base32 hash.toList_length, if_neg (by decide), if_pos rfl,
        decodeBase32_base32 hash.toList_length]
      exact if_neg (not_not.mpr hash.toList_length)
  | btmh hash =>
    rw [ExactTopic.Spelled, toAsciiLowercase_append, toAsciiLowercase_btmh,
      toAsciiLowercase_encodeHex] at h
    have hother : stripPrefix (toAsciiLowercase value) "urn:btih:" = none := by
      refine Option.eq_none_iff_forall_ne_some.mpr fun rest hrest ↦ ?_
      have heq := congrArg String.toList (h.symm.trans (stripPrefix_eq_some_iff.mp hrest))
      rw [String.toList_append, String.toList_append] at heq
      exact absurd (List.append_inj heq (by decide +kernel)).1 (by decide +kernel)
    rw [hother, stripPrefix_eq_some_iff.mpr h]
    dsimp only
    rw [decodeHex_encodeHex]
    exact if_neg (by simp)
  | other topic =>
    obtain ⟨rfl, hother⟩ := h
    have hnone {pattern : String} (h : ∀ rest, toAsciiLowercase value ≠ pattern ++ rest) :
        stripPrefix (toAsciiLowercase value) pattern = none :=
      Option.eq_none_iff_forall_ne_some.mpr fun rest hrest ↦
        h rest (stripPrefix_eq_some_iff.mp hrest)
    rw [hnone fun rest ↦ (hother rest).1, hnone fun rest ↦ (hother rest).2]
    rfl

theorem encodeHex_of_decodeHex {bytes : List UInt8} (h : decodeHex value = .ok bytes) :
    encodeHex bytes = toAsciiLowercase value := by
  rw [decodeHex] at h
  split at h
  · next decoded hdecoded =>
    obtain rfl := Except.ok.inj h
    rw [encodeHex, hexEncode_of_hexDecode hdecoded, toAsciiLowercase]
  · cases h

/-- A text in base 32 has one byte for each symbol. -/
theorem length_of_decodeBase32 {bytes : List UInt8} (h : decodeBase32 value = .ok bytes) :
    value.length = value.utf8ByteSize := by
  obtain ⟨state, hrun, -⟩ := Outcome.bind_eq_ok_iff.mp h
  obtain ⟨digits, hdigits, hvalue, -⟩ := Base32Decoder.has_of_run hrun
  have htext : value = String.ofList ((digits.map base32Symbol).map Char.toLower) :=
    utf8_injective (hvalue.trans (utf8_base32 hdigits).symm)
  rw [← length_utf8, hvalue, htext, String.length_ofList, List.length_map, List.length_map,
    List.length_map]

/-- The rest of a text in lower case is in lower case. -/
theorem toAsciiLowercase_rest {pattern rest : String}
    (hpattern : toAsciiLowercase pattern = pattern) (h : toAsciiLowercase value = pattern ++ rest) :
    toAsciiLowercase rest = rest := by
  have hlower := toAsciiLowercase_toAsciiLowercase value
  rw [h, toAsciiLowercase_append, hpattern] at hlower
  exact String.append_right_inj pattern |>.mp hlower

theorem spelled_of_decodeBtih {encoded : String} {bytes : List UInt8}
    (hvalue : toAsciiLowercase value = "urn:btih:" ++ encoded) (h : decodeBtih encoded = .ok bytes)
    (hlength : bytes.length = 20) : (ExactTopic.btih ⟨bytes, hlength⟩).Spelled value := by
  have hencoded := toAsciiLowercase_rest toAsciiLowercase_btih hvalue
  rw [decodeBtih] at h
  split_ifs at h with hhex hbase
  · refine .inl ?_
    rw [hvalue, toAsciiLowercase_append, toAsciiLowercase_btih, List.Vector.toList_mk,
      toAsciiLowercase_encodeHex, encodeHex_of_decodeHex h, hencoded]
  · refine .inr ?_
    obtain ⟨-, htext⟩ := base32_of_decodeBase32 ((length_of_decodeBase32 h).trans hbase) h
    rw [hvalue, toAsciiLowercase_append, toAsciiLowercase_btih, List.Vector.toList_mk,
      toAsciiLowercase_ofList, ← htext]

theorem spelled_of_decodeHex {encoded : String} {bytes : List UInt8}
    (hvalue : toAsciiLowercase value = "urn:btmh:" ++ encoded) (h : decodeHex encoded = .ok bytes)
    (hhead : bytes.take 2 = [0x12, 0x20]) (hlength : (bytes.drop 2).length = 32) :
    (ExactTopic.btmh ⟨bytes.drop 2, hlength⟩).Spelled value := by
  have hbytes : 0x12 :: 0x20 :: bytes.drop 2 = bytes := by
    have hsplit := List.take_append_drop 2 bytes
    rwa [hhead] at hsplit
  have hspelled : toAsciiLowercase value =
      toAsciiLowercase ("urn:btmh:" ++ encodeHex (0x12 :: 0x20 :: bytes.drop 2)) := by
    rw [hbytes, hvalue, toAsciiLowercase_append, toAsciiLowercase_btmh, toAsciiLowercase_encodeHex,
      encodeHex_of_decodeHex h, toAsciiLowercase_rest toAsciiLowercase_btmh hvalue]
  exact hspelled

theorem exists_spelled_of_parseExactTopic {magnet' : Magnet}
    (h : parseExactTopic value magnet = .ok magnet') :
    ∃ topic : ExactTopic, topic.Spelled value ∧ magnet' = magnet.addTopic topic := by
  rw [parseExactTopic] at h
  rcases hbtih : stripPrefix (toAsciiLowercase value) "urn:btih:" with _ | encoded
  · rcases hbtmh : stripPrefix (toAsciiLowercase value) "urn:btmh:" with _ | encoded
    · rw [hbtih, hbtmh] at h
      obtain rfl := Except.ok.inj h
      refine ⟨.other value, ⟨rfl, fun rest ↦ ⟨fun heq ↦ ?_, fun heq ↦ ?_⟩⟩, rfl⟩
      · cases hbtih.symm.trans (stripPrefix_eq_some_iff.mpr heq)
      · cases hbtmh.symm.trans (stripPrefix_eq_some_iff.mpr heq)
    · rw [hbtih, hbtmh] at h
      obtain ⟨bytes, hdecode, h⟩ := Outcome.bind_eq_ok_iff.mp h
      split_ifs at h with hmalformed
      obtain rfl := Except.ok.inj h
      rw [not_or, not_not, not_not] at hmalformed
      obtain ⟨hlength, hhead⟩ := hmalformed
      have hhash : (bytes.drop 2).length = 32 := by rw [List.length_drop, hlength]
      exact ⟨.btmh ⟨bytes.drop 2, hhash⟩,
        spelled_of_decodeHex (stripPrefix_eq_some_iff.mp hbtmh) hdecode hhead hhash, rfl⟩
  · rw [hbtih] at h
    obtain ⟨bytes, hdecode, h⟩ := Outcome.bind_eq_ok_iff.mp h
    split_ifs at h with hlength
    obtain rfl := Except.ok.inj h
    rw [not_not] at hlength
    exact ⟨.btih ⟨bytes, hlength⟩,
      spelled_of_decodeBtih (stripPrefix_eq_some_iff.mp hbtih) hdecode hlength, rfl⟩

/-- **Exactly the spellings of topics are accepted.** -/
theorem parseExactTopic_eq_ok_iff {magnet' : Magnet} :
    parseExactTopic value magnet = .ok magnet' ↔
      ∃ topic : ExactTopic, topic.Spelled value ∧ magnet' = magnet.addTopic topic := by
  constructor
  · exact exists_spelled_of_parseExactTopic
  · rintro ⟨topic, htopic, rfl⟩
    exact parseExactTopic_of_spelled htopic

/-- **Hexadecimal and base-32 topics agree.** Both spellings of a hash, in letters of either case,
are kept as the same forty lower-case digits. What the base-32 decoder accepts is in turn the
spelling of the bytes that it returns, and there always is room in its accumulator for another
symbol. -/
theorem hex_and_base32_topics_agree :
    (∀ (hash : List.Vector UInt8 20) (value : String) (magnet : Magnet),
      toAsciiLowercase value = toAsciiLowercase ("urn:btih:" ++ encodeHex hash.toList) ∨
        toAsciiLowercase value =
          toAsciiLowercase ("urn:btih:" ++ String.ofList (base32 hash.toList)) →
      parseExactTopic value magnet =
        .ok { magnet with btih := magnet.btih ++ [encodeHex hash.toList] }) ∧
    (∀ hash : List.Vector UInt8 20, (base32 hash.toList).length = 32 ∧
      (encodeHex hash.toList).length = 40 ∧
      toAsciiLowercase (encodeHex hash.toList) = encodeHex hash.toList) ∧
    (∀ (value : String) (bytes : List UInt8), value.length = 32 → decodeBase32 value = .ok bytes →
      bytes.length = 20 ∧
        toAsciiLowercase value = toAsciiLowercase (String.ofList (base32 bytes))) ∧
    ∀ (bytes : List UInt8) (state : Base32Decoder), Base32Decoder.run bytes = .ok state →
      state.accumulator <<< 5 < 2 ^ 32 ∧ state.bits + 5 < 2 ^ 8 := by
  refine ⟨fun hash value magnet h ↦ ?_, fun hash ↦ ⟨?_, ?_, ?_⟩, fun value bytes hlength h ↦ ?_,
    fun bytes state hrun ↦ ?_⟩
  · have hspelled : (ExactTopic.btih hash).Spelled value := h
    exact parseExactTopic_of_spelled hspelled
  · rw [base32, List.length_map, length_base32Digits ⟨4, hash.toList_length⟩, hash.toList_length]
  · rw [encodeHex, String.length_ofList, length_hexEncode, hash.toList_length]
  · exact toAsciiLowercase_encodeHex hash.toList
  · obtain ⟨hbytes, rfl⟩ := base32_of_decodeBase32 hlength h
    refine ⟨hbytes, ?_⟩
    rw [← toAsciiLowercase_ofList, toAsciiLowercase_toAsciiLowercase]
  · obtain ⟨digits, -, -, hhas⟩ := Base32Decoder.has_of_run hrun
    exact hhas.room

theorem hex_and_base32_topics_agree_zeros :
    parseExactTopic "URN:btih:AAAAaaaaAAAAaaaaAAAAaaaaAAAAaaaa" {} =
      .ok { btih := ["0000000000000000000000000000000000000000"] } := by
  have hzeros : encodeHex (List.Vector.replicate 20 0).toList =
      "0000000000000000000000000000000000000000" := by decide +kernel
  rw [← hzeros]
  exact hex_and_base32_topics_agree.1 (.replicate 20 0) _ {} (.inr (by decide +kernel))

end TripTorrent.Interop
