import TripTorrent.Interop.Topics

/-!
# Magnet links read what was written

Whoever writes a link chooses which bytes of the names and values to escape, beyond those that would
be taken for the syntax of the link, and how to spell the digits of an escape. `Parameter` carries a
name and a value together with such a choice. The link that the choices add up to is read as the
names and values, each under its name and in the order in which they were written.

What is read is compared with what was written one parameter at a time (`Collected`): a value is
added at the end of one list, and no other list changes.
-/

namespace TripTorrent.Interop

open Codec

/-! ## Links -/

/-- What is escaped in a value. -/
def valueReserved : Set UInt8 := {'%'.toUInt8, '&'.toUInt8}

/-- What is escaped in a name. -/
def nameReserved : Set UInt8 := {'%'.toUInt8, '&'.toUInt8, '='.toUInt8}

instance : DecidablePred (· ∈ valueReserved) := fun byte ↦
  inferInstanceAs (Decidable (byte = _ ∨ byte = _))

instance : DecidablePred (· ∈ nameReserved) := fun byte ↦
  inferInstanceAs (Decidable (byte = _ ∨ byte = _ ∨ byte = _))

/-- A name and a value, and how they are written. -/
structure Parameter where
  name : String
  value : String
  rawName : String
  rawValue : String
  escaped_name : Escaped nameReserved (utf8 rawName) (utf8 name)
  escaped_value : Escaped valueReserved (utf8 rawValue) (utf8 value)

def Parameter.raw (parameter : Parameter) : String :=
  parameter.rawName ++ "=" ++ parameter.rawValue

def magnetUri (parameters : List Parameter) : String :=
  "magnet:?" ++ "&".intercalate (parameters.map Parameter.raw)

/-- The values under a name, in order. -/
def valuesOf (name : String) (parameters : List Parameter) : List String :=
  (parameters.filter fun parameter ↦ parameter.name = name).map Parameter.value

theorem valuesOf_concat (name : String) (parameters : List Parameter) (parameter : Parameter) :
    valuesOf name (parameters ++ [parameter]) =
      valuesOf name parameters ++ if parameter.name = name then [parameter.value] else [] := by
  rw [valuesOf, List.filter_append, List.map_append, valuesOf]
  split_ifs with h
  · simp [h]
  · simp [h]

/-! ## Names and values -/

theorem hexDigit_of_isHexDigit {byte : UInt8} {n : ℕ} (hn : n < 16) (h : IsHexDigit byte n) :
    hexDigit byte = .ok n :=
  forall_isHexDigit (P := fun byte n ↦ hexDigit byte = .ok n) (by decide) hn h

theorem percentDecodeBytes_of_escaped {reserved : Set UInt8} {raw text : List UInt8}
    (h : Escaped reserved raw text) (hpercent : '%'.toUInt8 ∈ reserved) :
    percentDecodeBytes raw = .ok text := by
  induction h with
  | nil => rfl
  | @plain byte raw text hbyte h ih =>
    have hne : byte ≠ '%'.toUInt8 := by
      rintro rfl
      exact hbyte hpercent
    rw [percentDecodeBytes.eq_def]
    dsimp only
    rw [if_neg hne, ih]
    rfl
  | @escape byte high low raw text hhigh hlow h ih =>
    have hlt := byte.toNat_lt
    rw [percentDecodeBytes, if_pos rfl, hexDigit_of_isHexDigit (by omega) hhigh,
      hexDigit_of_isHexDigit (by omega) hlow, ih]
    dsimp only [bind, Except.bind]
    rw [Nat.div_add_mod, UInt8.ofNat_toNat]

theorem percentDecode_of_escaped {reserved : Set UInt8} {raw text : String}
    (h : Escaped reserved (utf8 raw) (utf8 text)) (hpercent : '%'.toUInt8 ∈ reserved) :
    percentDecode raw = .ok text := by
  rw [percentDecode, percentDecodeBytes_of_escaped h hpercent]
  dsimp only [bind, Except.bind]
  rw [ofUtf8?_eq_some_iff.mpr rfl]

theorem toUInt8_mem_utf8 {text : String} {c : Char} (hc : c.toNat < 128) (h : c ∈ text.toList) :
    c.toUInt8 ∈ utf8 text := by
  rw [← text.ofList_toList, utf8_ofList, List.mem_flatMap]
  exact ⟨c, h, by rw [utf8EncodeChar_of_lt hc]; exact List.mem_singleton_self _⟩

/-- A separator does not stand in a name or a value in which it is escaped. -/
theorem notMem_of_escaped {reserved : Set UInt8} {raw text : String} {c : Char}
    (h : Escaped reserved (utf8 raw) (utf8 text)) (hc : c = '&' ∨ c = '=')
    (hreserved : c.toUInt8 ∈ reserved) : c ∉ raw.toList := by
  intro hmem
  rcases hc with rfl | rfl
  · exact h.notMem hreserved (by decide) (by decide) (toUInt8_mem_utf8 (by decide) hmem)
  · exact h.notMem hreserved (by decide) (by decide) (toUInt8_mem_utf8 (by decide) hmem)

namespace Parameter

variable (parameter : Parameter)

theorem toList_raw : parameter.raw.toList =
    parameter.rawName.toList ++ '=' :: parameter.rawValue.toList := by
  rw [raw, String.toList_append, String.toList_append, List.append_assoc]
  rfl

theorem ampersand_notMem_raw : '&' ∉ parameter.raw.toList := by
  rw [toList_raw, List.mem_append, List.mem_cons, not_or, not_or]
  refine ⟨?_, by decide, ?_⟩
  · exact notMem_of_escaped parameter.escaped_name (.inl rfl) (by simp [nameReserved])
  · exact notMem_of_escaped parameter.escaped_value (.inl rfl) (by simp [valueReserved])

/-- A parameter is read as its name and its value. -/
theorem parseParameter_raw (magnet : Magnet) (exactTopics : ℕ) :
    parseParameter (magnet, exactTopics) parameter.raw.toList =
      if parameter.name = "xt" then do
        let magnet ← parseExactTopic parameter.value magnet
        .ok (magnet, exactTopics + 1)
      else .ok (magnet.addHint parameter.name parameter.value, exactTopics) := by
  have hequals : '=' ∉ parameter.rawName.toList :=
    notMem_of_escaped parameter.escaped_name (.inr rfl) (by simp [nameReserved])
  have hname : percentDecode parameter.rawName = .ok parameter.name :=
    percentDecode_of_escaped parameter.escaped_name (by simp [nameReserved])
  have hvalue : percentDecode parameter.rawValue = .ok parameter.value :=
    percentDecode_of_escaped parameter.escaped_value (by simp [valueReserved])
  rw [parseParameter, toList_raw, splitOnce_append hequals, Option.getD_some]
  dsimp only
  rw [String.ofList_toList, String.ofList_toList, hname, hvalue]
  rfl

end Parameter

/-! ## What is read -/

def ExactTopic.btih? : ExactTopic → Option String
  | .btih hash => some (encodeHex hash.toList)
  | _ => none

def ExactTopic.btmh? : ExactTopic → Option String
  | .btmh hash => some (encodeHex hash.toList)
  | _ => none

def ExactTopic.other? : ExactTopic → Option String
  | .other topic => some topic
  | _ => none

/-- The names that have a list of their own. -/
def knownNames : List String := ["xt", "dn", "tr", "x.pe", "ws", "as", "xs"]

/-- The topics that were read. -/
structure CollectedTopics (magnet : Magnet) (topics : List ExactTopic) : Prop where
  btih : magnet.btih = topics.filterMap ExactTopic.btih?
  btmhSha256 : magnet.btmhSha256 = topics.filterMap ExactTopic.btmh?
  otherExactTopics : magnet.otherExactTopics = topics.filterMap ExactTopic.other?

/-- The other values that were read, each under its name. -/
structure CollectedHints (magnet : Magnet) (parameters : List Parameter) : Prop where
  displayNames : magnet.displayNames = valuesOf "dn" parameters
  trackers : magnet.trackers = valuesOf "tr" parameters
  explicitPeers : magnet.explicitPeers = valuesOf "x.pe" parameters
  webSeeds : magnet.webSeeds = valuesOf "ws" parameters
  acceptableSources : magnet.acceptableSources = valuesOf "as" parameters
  exactSources : magnet.exactSources = valuesOf "xs" parameters
  other : ∀ name, magnet.other[name]? =
    if name ∈ knownNames ∨ valuesOf name parameters = [] then none
    else some (valuesOf name parameters)

/-- What was read are the topics and the values under the other names. -/
structure Collected (magnet : Magnet) (topics : List ExactTopic) (parameters : List Parameter) :
    Prop extends CollectedTopics magnet topics, CollectedHints magnet parameters

variable {magnet : Magnet} {topics : List ExactTopic} {parameters : List Parameter}
  {parameter : Parameter}

theorem collected_default : Collected {} [] [] where
  btih := rfl
  btmhSha256 := rfl
  otherExactTopics := rfl
  displayNames := rfl
  trackers := rfl
  explicitPeers := rfl
  webSeeds := rfl
  acceptableSources := rfl
  exactSources := rfl
  other name := by rw [if_pos (.inr rfl), Std.ExtTreeMap.getElem?_empty]

theorem CollectedTopics.addTopic (h : CollectedTopics magnet topics) (topic : ExactTopic) :
    CollectedTopics (magnet.addTopic topic) (topics ++ [topic]) := by
  cases topic with
  | _ =>
    constructor
    all_goals
      simp [Magnet.addTopic, ExactTopic.btih?, ExactTopic.btmh?, ExactTopic.other?, h.btih,
        h.btmhSha256, h.otherExactTopics]

theorem CollectedTopics.addHint (h : CollectedTopics magnet topics) (name value : String) :
    CollectedTopics (magnet.addHint name value) topics := by
  rw [Magnet.addHint]
  split_ifs
  all_goals exact ⟨h.btih, h.btmhSha256, h.otherExactTopics⟩

/-- A parameter with a known name changes nothing under the other names. -/
theorem CollectedHints.other_concat (h : CollectedHints magnet parameters)
    (hname : parameter.name ∈ knownNames) (name : String) :
    magnet.other[name]? =
      if name ∈ knownNames ∨ valuesOf name (parameters ++ [parameter]) = [] then none
      else some (valuesOf name (parameters ++ [parameter])) := by
  rw [h.other name, valuesOf_concat]
  by_cases hsame : parameter.name = name
  · rw [if_pos (.inl (hsame ▸ hname)), if_pos (.inl (hsame ▸ hname))]
  · rw [if_neg hsame, List.append_nil]

theorem CollectedHints.addTopic (h : CollectedHints magnet parameters) (topic : ExactTopic)
    (hname : parameter.name = "xt") :
    CollectedHints (magnet.addTopic topic) (parameters ++ [parameter]) := by
  have hknown : parameter.name ∈ knownNames := by
    rw [hname]
    decide
  have hother := h.other_concat hknown
  cases topic with
  | _ =>
    refine ⟨?_, ?_, ?_, ?_, ?_, ?_, hother⟩
    all_goals
      simp [Magnet.addTopic, valuesOf_concat, hname, h.displayNames, h.trackers, h.explicitPeers,
        h.webSeeds, h.acceptableSources, h.exactSources]

/-- A name without a list of its own. -/
theorem CollectedHints.other_alter (h : CollectedHints magnet parameters)
    (hname : parameter.name ∉ knownNames) (name : String) :
    (magnet.other.alter parameter.name fun values ↦
        some (values.getD [] ++ [parameter.value]))[name]? =
      if name ∈ knownNames ∨ valuesOf name (parameters ++ [parameter]) = [] then none
      else some (valuesOf name (parameters ++ [parameter])) := by
  rw [Std.ExtTreeMap.getElem?_alter, h.other, h.other, valuesOf_concat]
  simp only [Std.compare_eq_iff_eq]
  by_cases hsame : parameter.name = name
  · subst hsame
    by_cases hnil : valuesOf parameter.name parameters = []
    · simp [hname, hnil]
    · simp [hname, hnil]
  · rw [if_neg hsame, if_neg hsame, List.append_nil]

theorem CollectedHints.addHint (h : CollectedHints magnet parameters)
    (hxt : parameter.name ≠ "xt") :
    CollectedHints (magnet.addHint parameter.name parameter.value) (parameters ++ [parameter]) := by
  by_cases hknown : parameter.name ∈ knownNames
  · have hother := h.other_concat hknown
    rw [knownNames, List.mem_cons, or_iff_right hxt] at hknown
    simp only [List.mem_cons, List.not_mem_nil, or_false] at hknown
    rcases hknown with hname | hname | hname | hname | hname | hname
    -- in each case one of the lists grows
    all_goals
      rw [Magnet.addHint, hname]
      refine ⟨?_, ?_, ?_, ?_, ?_, ?_, hother⟩
    all_goals
      simp [valuesOf_concat, hname, h.displayNames, h.trackers, h.explicitPeers, h.webSeeds,
        h.acceptableSources, h.exactSources]
  · have hother := h.other_alter hknown
    simp only [knownNames, List.mem_cons, List.not_mem_nil, or_false, not_or] at hknown
    simp only [Magnet.addHint, hknown, if_false]
    refine ⟨?_, ?_, ?_, ?_, ?_, ?_, hother⟩
    all_goals
      simp [valuesOf_concat, hknown, h.displayNames, h.trackers, h.explicitPeers, h.webSeeds,
        h.acceptableSources, h.exactSources]

/-! ## Runs -/

/-- One parameter adds its value at the end of the list that it belongs to. -/
theorem parseParameters_raw (h : Collected magnet topics parameters) {more : List ExactTopic}
    {rest : List Parameter} (hmore : List.Forall₂ ExactTopic.Spelled more (valuesOf "xt" rest))
    (exactTopics : ℕ) {index : ℕ} (hcount : index + rest.length ≤ maxMagnetParameters) :
    ∃ magnet', parseParameters index (magnet, exactTopics)
        (rest.map fun parameter ↦ parameter.raw.toList) =
        .ok (magnet', exactTopics + more.length) ∧
      Collected magnet' (topics ++ more) (parameters ++ rest) := by
  induction rest generalizing magnet topics parameters more index exactTopics with
  | nil =>
    obtain rfl := List.forall₂_nil_right_iff.mp hmore
    refine ⟨magnet, rfl, ?_⟩
    rwa [List.append_nil, List.append_nil]
  | cons parameter rest ih =>
    rw [List.length_cons] at hcount
    rw [List.map_cons, parseParameters, if_neg (by omega), parameter.parseParameter_raw]
    rw [List.append_cons parameters]
    by_cases hname : parameter.name = "xt"
    · have hvalues : valuesOf "xt" (parameter :: rest) =
          parameter.value :: valuesOf "xt" rest := by
        simp [valuesOf, hname]
      rw [hvalues] at hmore
      obtain ⟨topic, more, htopic, hrest, rfl⟩ := List.forall₂_cons_right_iff.mp hmore
      have hadd : Collected (magnet.addTopic topic) (topics ++ [topic])
          (parameters ++ [parameter]) :=
        ⟨h.toCollectedTopics.addTopic topic, h.toCollectedHints.addTopic topic hname⟩
      rw [if_pos hname, parseExactTopic_of_spelled htopic, List.append_cons topics]
      have hlater : index + 1 + rest.length ≤ maxMagnetParameters := by omega
      obtain ⟨magnet', hparse, hcollected⟩ := ih hadd hrest (exactTopics + 1) hlater
      refine ⟨magnet', ?_, hcollected⟩
      rw [List.length_cons, Nat.add_comm more.length, ← Nat.add_assoc, ← hparse]
      rfl
    · have hvalues : valuesOf "xt" (parameter :: rest) = valuesOf "xt" rest := by
        simp [valuesOf, hname]
      rw [hvalues] at hmore
      have hadd : Collected (magnet.addHint parameter.name parameter.value) topics
          (parameters ++ [parameter]) :=
        ⟨h.toCollectedTopics.addHint _ _, h.toCollectedHints.addHint hname⟩
      have hlater : index + 1 + rest.length ≤ maxMagnetParameters := by omega
      obtain ⟨magnet', hparse, hcollected⟩ := ih hadd hmore exactTopics hlater
      rw [if_neg hname]
      exact ⟨magnet', hparse, hcollected⟩

/-- The query is cut into the parameters. -/
theorem splitOn_query (hne : parameters ≠ []) :
    ((("&".intercalate (parameters.map Parameter.raw)).toList.splitOn '&').filter
      fun part ↦ !part.isEmpty) = parameters.map fun parameter ↦ parameter.raw.toList := by
  rw [String.toList_intercalate, List.map_map]
  have hsplit :
      List.splitOn '&' (['&'].intercalate (parameters.map (String.toList ∘ Parameter.raw))) =
        parameters.map (String.toList ∘ Parameter.raw) := by
    refine List.splitOn_intercalate '&' (fun part hpart ↦ ?_) (by simpa using hne)
    obtain ⟨parameter, -, rfl⟩ := List.mem_map.mp hpart
    exact parameter.ampersand_notMem_raw
  have hnonempty : ∀ part ∈ parameters.map (String.toList ∘ Parameter.raw),
      (!part.isEmpty) = true := by
    intro part hpart
    obtain ⟨parameter, -, rfl⟩ := List.mem_map.mp hpart
    rw [Function.comp_apply, parameter.toList_raw]
    simp
  exact (congrArg _ hsplit).trans (List.filter_eq_self.mpr hnonempty)

/-- **Magnet links round trip.** A link within the limits, with a topic and without malformed ones,
is read as the parameters that it was written from, whichever way they are escaped. -/
theorem parseMagnet_magnetUri
    (hsize : (magnetUri parameters).utf8ByteSize ≤ maxMagnetLength)
    (hcount : parameters.length ≤ maxMagnetParameters)
    (hxt : ∃ parameter ∈ parameters, parameter.name = "xt")
    (hspelled : List.Forall₂ ExactTopic.Spelled topics (valuesOf "xt" parameters)) :
    ∃ magnet, parseMagnet (magnetUri parameters) = .ok magnet ∧
      Collected magnet topics parameters := by
  obtain ⟨parameter, hparameter, hname⟩ := hxt
  obtain ⟨magnet, hparse, hcollected⟩ :=
    parseParameters_raw collected_default hspelled 0 (Nat.zero_add parameters.length ▸ hcount)
  refine ⟨magnet, ?_, hcollected⟩
  have htopic : 0 + topics.length ≠ 0 := by
    have hmem : parameter.value ∈ valuesOf "xt" parameters :=
      List.mem_map_of_mem (List.mem_filter.mpr ⟨hparameter, by simpa using hname⟩)
    rw [Nat.zero_add, hspelled.length_eq]
    exact (List.length_pos_of_mem hmem).ne'
  have hquery : stripPrefix (magnetUri parameters) "magnet:?" =
      some ("&".intercalate (parameters.map Parameter.raw)) := stripPrefix_eq_some_iff.mpr rfl
  rw [parseMagnet, if_neg (not_lt.mpr hsize), hquery]
  dsimp only
  rw [splitOn_query (List.ne_nil_of_mem hparameter), hparse]
  exact if_neg htopic

theorem parseMagnet_magnetUri_escaped : ∃ magnet,
    parseMagnet "magnet:?xt=urn:trip:x&dn=a%26b" = .ok magnet ∧
      magnet.otherExactTopics = ["urn:trip:x"] ∧ magnet.displayNames = ["a&b"] := by
  let topic : Parameter :=
    { name := "xt", value := "urn:trip:x", rawName := "xt", rawValue := "urn:trip:x"
      escaped_name := .self (by decide +kernel)
      escaped_value := .self (by decide +kernel) }
  let name : Parameter :=
    { name := "dn", value := "a&b", rawName := "dn", rawValue := "a%26b"
      escaped_name := .self (by decide +kernel)
      escaped_value := .plain (by decide +kernel)
        (.escape (by decide +kernel) (by decide +kernel) (.plain (by decide +kernel) .nil)) }
  have hspelled : (ExactTopic.other "urn:trip:x").Spelled "urn:trip:x" := by
    refine ⟨rfl, fun rest ↦ ⟨?_, ?_⟩⟩
    all_goals
      intro heq
      have htake := congrArg (fun s ↦ (String.toList s).take 9) heq
      rw [String.toList_append, List.take_left' (by decide +kernel)] at htake
      exact absurd htake (by decide +kernel)
  have hsize : (magnetUri [topic, name]).utf8ByteSize ≤ maxMagnetLength := by decide +kernel
  obtain ⟨magnet, hparse, hcollected⟩ :=
    parseMagnet_magnetUri hsize (by decide) ⟨topic, List.mem_cons_self, rfl⟩
      (.cons hspelled .nil)
  exact ⟨magnet, hparse, hcollected.otherExactTopics, hcollected.displayNames⟩

end TripTorrent.Interop
