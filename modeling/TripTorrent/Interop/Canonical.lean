import TripTorrent.Codec.Outcome
import TripTorrent.Codec.Slices
import TripTorrent.Codec.Text
import TripTorrent.Interop.Bencode

/-!
# What the bencode parser accepts

The parser succeeds exactly on the encoding of a canonical value within its bounds, and returns the
value located where the encoding stands. This is one equivalence for nodes (`parses_parseNode`),
proved by induction on the number of levels still allowed, from one equivalence for each of the
functions that a node is parsed with.
-/

namespace TripTorrent.Interop

open Codec

/-! ## Numbers -/

theorem not_malformedLength_iff {encoded : List UInt8} :
    ¬MalformedLength encoded ↔ ∃ n, encoded = decimal n := by
  rw [← numeral_iff, MalformedLength, not_or, not_or, not_not, List.all_eq_true, not_and, not_lt]
  constructor
  · rintro ⟨hne, hzero, hdigit⟩
    exact ⟨hne, hdigit, fun h ↦ (hzero h).antisymm (List.length_pos_iff.mpr hne)⟩
  · rintro ⟨hne, hdigit, hzero⟩
    exact ⟨hne, fun h ↦ (hzero h).le, hdigit⟩

theorem all_zipIdx_succ (l : List UInt8) (k : ℕ) :
    ((l.zipIdx (k + 1)).all fun (byte, index) ↦
      isDigit byte || (index == 0 && byte == '-'.toUInt8)) = l.all isDigit := by
  induction l generalizing k with
  | nil => rfl
  | cons byte l ih =>
    rw [List.zipIdx_cons, List.all_cons, List.all_cons, ih]
    simp

/-- Behind a minus sign stands a numeral that does not begin with a zero. -/
theorem malformedInteger_minus_iff {digits : List UInt8} :
    MalformedInteger ('-'.toUInt8 :: digits) ↔
      digits = [] ∨ digits.head? = some '0'.toUInt8 ∨ ¬digits.all isDigit := by
  rw [MalformedInteger, List.zipIdx_cons, List.all_cons, all_zipIdx_succ]
  cases digits with
  | nil => simp
  | cons first rest =>
    have hzero : '-'.toUInt8 ≠ '0'.toUInt8 := by decide
    cases rest with
    | nil => simp [minusZero, hzero, List.cons_prefix_cons]
    | cons second rest => simp [minusZero, hzero, List.cons_prefix_cons, eq_comm (b := first)]

theorem malformedInteger_iff_of_ne {encoded : List UInt8} (h : encoded.head? ≠ some '-'.toUInt8) :
    MalformedInteger encoded ↔ MalformedLength encoded := by
  cases encoded with
  | nil => exact iff_of_true (.inl rfl) (.inl rfl)
  | cons first rest =>
    have hfirst : ¬first = '-'.toUInt8 := fun heq ↦ h (congrArg some heq)
    rw [MalformedInteger, MalformedLength, List.zipIdx_cons, List.all_cons, all_zipIdx_succ]
    simp [minusZero, hfirst, List.cons_prefix_cons, Ne.symm hfirst]

theorem not_malformedInteger_iff {encoded : List UInt8} :
    ¬MalformedInteger encoded ↔ ∃ z, encoded = signed z := by
  rw [exists_eq_signed_iff]
  by_cases hminus : encoded.head? = some '-'.toUInt8
  · obtain ⟨digits, rfl⟩ := List.head?_eq_some_iff.mp hminus
    rw [malformedInteger_minus_iff, not_or, not_or, not_not, List.all_eq_true]
    constructor
    · rintro ⟨hne, hzero, hdigit⟩
      exact .inr ⟨digits, rfl, ⟨hne, hdigit, fun h ↦ absurd h hzero⟩, hzero⟩
    · rintro (h | ⟨_, heq, h, hzero⟩)
      · exact absurd (h.isDigit _ List.mem_cons_self) (by decide)
      · obtain rfl := (List.cons.inj heq).2
        exact ⟨h.ne_nil, hzero, h.isDigit⟩
  · rw [malformedInteger_iff_of_ne hminus, not_malformedLength_iff, numeral_iff, or_iff_left]
    rintro ⟨digits, rfl, -⟩
    exact hminus rfl

theorem readInteger_iff {encoded : List UInt8} {z : ℤ} :
    ¬MalformedInteger encoded ∧ parseSigned (2 ^ 63) encoded = some z ↔
      encoded = signed z ∧ -2 ^ 63 ≤ z ∧ z < 2 ^ 63 := by
  rw [not_malformedInteger_iff]
  constructor
  · rintro ⟨⟨z', rfl⟩, h⟩
    rw [parseSigned_signed] at h
    split_ifs at h with hrange
    obtain rfl := Option.some.inj h
    exact ⟨rfl, by simpa using hrange⟩
  · rintro ⟨rfl, hrange⟩
    rw [parseSigned_signed, if_pos (by simpa using hrange)]
    exact ⟨⟨z, rfl⟩, rfl⟩

theorem readLength_iff {encoded : List UInt8} {n : ℕ} :
    ¬MalformedLength encoded ∧ parseUnsigned (2 ^ 64) encoded = some n ↔
      encoded = decimal n ∧ n < 2 ^ 64 := by
  rw [not_malformedLength_iff]
  constructor
  · rintro ⟨⟨n', rfl⟩, h⟩
    rw [parseUnsigned_decimal] at h
    split_ifs at h with hlimit
    obtain rfl := Option.some.inj h
    exact ⟨rfl, hlimit⟩
  · rintro ⟨rfl, hlimit⟩
    rw [parseUnsigned_decimal, if_pos hlimit]
    exact ⟨⟨n, rfl⟩, rfl⟩

/-! ## Parsing at a position -/

section Spec

variable {input : List UInt8} {position stop : ℕ} {token : UInt8} {p q : Parser}

theorem findTerminator_eq_ok_iff :
    findTerminator input position token = .ok stop ↔
      ∃ a, token ∉ a ∧ Occurs input position (a ++ [token]) ∧ stop = position + a.length := by
  rw [findTerminator]
  constructor
  · intro h
    split at h
    · cases h
    · next relative hrelative =>
      obtain ⟨a, hmem, hoccurs, rfl⟩ := idxOf?_drop_eq_some_iff.mp hrelative
      exact ⟨a, hmem, hoccurs, (Except.ok.inj h).symm⟩
  · rintro ⟨a, hmem, hoccurs, rfl⟩
    rw [idxOf?_drop_eq_some_iff.mpr ⟨a, hmem, hoccurs, rfl⟩]

theorem parseInteger_eq_ok_iff {value : BencodeValue} :
    parseInteger input p = .ok (value, q) ↔
      ∃ z : ℤ, (-2 ^ 63 ≤ z ∧ z < 2 ^ 63) ∧
        Occurs input (p.position + 1) (signed z ++ ['e'.toUInt8]) ∧ value = .integer z ∧
        q = { p with position := p.position + 1 + (signed z).length + 1 } := by
  rw [parseInteger, Outcome.bind_eq_ok_iff]
  dsimp only
  constructor
  · rintro ⟨stop, hstop, h⟩
    obtain ⟨encoded, -, hoccurs, rfl⟩ := findTerminator_eq_ok_iff.mp hstop
    rw [(occurs_append_iff.mp hoccurs).1.extract_eq] at h
    split_ifs at h with hmalformed
    split at h
    · cases h
    · next z hz =>
      obtain ⟨rfl, hrange⟩ := readInteger_iff.mp ⟨hmalformed, hz⟩
      obtain ⟨rfl, rfl⟩ := Prod.mk.inj (Except.ok.inj h)
      exact ⟨z, hrange, hoccurs, rfl, rfl⟩
  · rintro ⟨z, hrange, hoccurs, rfl, rfl⟩
    obtain ⟨hwell, hparse⟩ := readInteger_iff.mpr ⟨rfl, hrange⟩
    refine ⟨_, findTerminator_eq_ok_iff.mpr ⟨_, not_mem_signed (by decide) z, hoccurs, rfl⟩, ?_⟩
    rw [(occurs_append_iff.mp hoccurs).1.extract_eq, if_neg hwell, hparse]

theorem parseBytes_eq_ok_iff (hinput : input.length < 2 ^ 64) {value : List UInt8} :
    parseBytes input p = .ok (value, q) ↔
      Occurs input p.position (Bencode.encodeBytes value) ∧
        q = { p with position := p.position + (Bencode.encodeBytes value).length } := by
  rw [parseBytes, Outcome.bind_eq_ok_iff]
  dsimp only
  constructor
  · rintro ⟨colon, hcolon, h⟩
    obtain ⟨encoded, -, hoccurs, rfl⟩ := findTerminator_eq_ok_iff.mp hcolon
    rw [(occurs_append_iff.mp hoccurs).1.extract_eq] at h
    split_ifs at h with hmalformed
    split at h
    · cases h
    · next n hn =>
      obtain ⟨rfl, -⟩ := readLength_iff.mp ⟨hmalformed, hn⟩
      split_ifs at h with hinside
      obtain ⟨hvalue, rfl⟩ := Prod.mk.inj (Except.ok.inj h)
      obtain ⟨hoccurs', hlength⟩ := occurs_extract (Nat.le_add_right _ n) hinside
      rw [hvalue] at hoccurs' hlength
      obtain rfl : n = value.length := by omega
      rw [Bencode.encodeBytes, ← List.singleton_append, ← List.append_assoc, occurs_append_iff]
      refine ⟨⟨hoccurs, ?_⟩, ?_⟩
      · rwa [List.length_append, List.length_singleton, ← add_assoc]
      · simp only [List.length_append, List.length_singleton, Parser.mk.injEq, and_true]
        omega
  · rintro ⟨hoccurs, rfl⟩
    have hinside := hoccurs.length_le (by simp [Bencode.encodeBytes])
    rw [Bencode.encodeBytes, ← List.singleton_append, ← List.append_assoc] at hoccurs hinside ⊢
    obtain ⟨hcolon, hvalue⟩ := occurs_append_iff.mp hoccurs
    simp only [List.length_append, List.length_singleton, ← add_assoc] at hvalue hinside ⊢
    obtain ⟨hwell, hparse⟩ := readLength_iff.mpr ⟨rfl, (by omega : value.length < 2 ^ 64)⟩
    refine ⟨_, findTerminator_eq_ok_iff.mpr ⟨_, not_mem_decimal (by decide) _, hcolon, rfl⟩, ?_⟩
    rw [(occurs_append_iff.mp hcolon).1.extract_eq, if_neg hwell, hparse]
    dsimp only
    rw [if_pos hinside, hvalue.extract_eq]

/-! ### Loops -/

variable {parseItem : Parser → Except BencodeError (BencodeNode × Parser)} {levels rounds : ℕ}

/-- The parser stands where a value of at most `levels` levels can be parsed within the bounds. -/
structure Fits (input : List UInt8) (levels : ℕ) (p : Parser) (v : Bencode) : Prop where
  canonical : v.Canonical
  depth_lt : v.depth < levels
  size_le : p.nodes + v.size ≤ maxBencodeNodes
  occurs : Occurs input p.position v.encode

/-- The parser behind a value. -/
def Parser.after (p : Parser) (v : Bencode) : Parser :=
  ⟨p.position + v.encode.length, p.nodes + v.size⟩

@[simp]
theorem Parser.nodes_after (p : Parser) (v : Bencode) : (p.after v).nodes = p.nodes + v.size := rfl

theorem Parser.after_integer (p : Parser) (z : ℤ) :
    p.after (.integer z) = ⟨p.position + 1 + (signed z).length + 1, p.nodes + 1⟩ := by
  simp only [after, Bencode.encode, Bencode.size, List.length_cons, List.length_append,
    List.length_nil, Parser.mk.injEq, and_true]
  omega

/-- The parser behind the values of a list. -/
def Parser.afterList (p : Parser) (values : List Bencode) : Parser :=
  ⟨p.position + (Bencode.encodeList values).length, p.nodes + Bencode.sizeList values⟩

theorem Parser.afterList_cons (p : Parser) (v : Bencode) (values : List Bencode) :
    p.afterList (v :: values) = (p.after v).afterList values := by
  simp only [afterList, after, Bencode.encodeList, Bencode.sizeList, List.length_append, add_assoc]

theorem Parser.after_list (p : Parser) (values : List Bencode) :
    p.after (.list values) =
      ⟨((⟨p.position + 1, p.nodes + 1⟩ : Parser).afterList values).position + 1,
        ((⟨p.position + 1, p.nodes + 1⟩ : Parser).afterList values).nodes⟩ := by
  simp only [after, afterList, Bencode.encode, Bencode.size, List.length_cons, List.length_append,
    List.length_nil, Parser.mk.injEq]
  omega

/-- The parser behind a key. -/
def Parser.afterKey (p : Parser) (key : List UInt8) : Parser :=
  { p with position := p.position + (Bencode.encodeBytes key).length }

@[simp]
theorem Parser.nodes_afterKey (p : Parser) (key : List UInt8) : (p.afterKey key).nodes = p.nodes :=
  rfl

/-- The parser behind the entries of a dictionary. -/
def Parser.afterEntries (p : Parser) (entries : List (List UInt8 × Bencode)) : Parser :=
  ⟨p.position + (Bencode.encodeEntries entries).length, p.nodes + Bencode.sizeEntries entries⟩

theorem Parser.afterEntries_cons (p : Parser) (key : List UInt8) (v : Bencode)
    (entries : List (List UInt8 × Bencode)) :
    p.afterEntries ((key, v) :: entries) = ((p.afterKey key).after v).afterEntries entries := by
  simp only [afterEntries, after, afterKey, Bencode.encodeEntries, Bencode.sizeEntries,
    List.length_append, add_assoc]

theorem Parser.after_dictionary (p : Parser) (entries : List (List UInt8 × Bencode)) :
    p.after (.dictionary entries) =
      ⟨((⟨p.position + 1, p.nodes + 1⟩ : Parser).afterEntries entries).position + 1,
        ((⟨p.position + 1, p.nodes + 1⟩ : Parser).afterEntries entries).nodes⟩ := by
  simp only [after, afterEntries, Bencode.encode, Bencode.size, List.length_cons,
    List.length_append, List.length_nil, Parser.mk.injEq]
  omega

/-- Exactly the values that fit are parsed, and the parser is left behind them. -/
def Parses (input : List UInt8) (levels : ℕ)
    (parseItem : Parser → Except BencodeError (BencodeNode × Parser)) : Prop :=
  ∀ p node q, parseItem p = .ok (node, q) ↔
    ∃ v, Fits input levels p v ∧ node = locate p.position v ∧ q = p.after v

theorem getElem?_ne_of_occurs_encode {v : Bencode} (h : Occurs input position v.encode) :
    input[position]? ≠ some 'e'.toUInt8 := by
  obtain ⟨first, rest, hencode, hfirst⟩ := v.exists_encode_eq_cons
  rw [hencode, occurs_cons_iff] at h
  rw [h.1]
  exact fun heq ↦ hfirst (Option.some.inj heq)

theorem parseValues_succ_eq_ok_iff (he : input[p.position]? ≠ some 'e'.toUInt8)
    {nodes : List BencodeNode} :
    parseValues input parseItem (rounds + 1) p = .ok (nodes, q) ↔
      ∃ node p' nodes', parseItem p = .ok (node, p') ∧
        parseValues input parseItem rounds p' = .ok (nodes', q) ∧ nodes = node :: nodes' := by
  rw [parseValues, if_neg he, Outcome.bind_eq_ok_iff]
  constructor
  · rintro ⟨⟨node, p'⟩, hitem, h⟩
    obtain ⟨⟨nodes', q'⟩, hrest, h⟩ := Outcome.bind_eq_ok_iff.mp h
    obtain ⟨rfl, rfl⟩ := Prod.mk.inj (Except.ok.inj h)
    exact ⟨node, p', nodes', hitem, hrest, rfl⟩
  · rintro ⟨node, p', nodes', hitem, hrest, rfl⟩
    exact ⟨(node, p'), hitem, Outcome.bind_eq_ok_iff.mpr ⟨(nodes', q), hrest, rfl⟩⟩

/-- The parser stands where the values of a list can be parsed up to its end. -/
structure FitsList (input : List UInt8) (levels : ℕ) (p : Parser) (values : List Bencode) :
    Prop where
  items : ∀ v ∈ values, v.Canonical ∧ v.depth < levels
  size_le : p.nodes + Bencode.sizeList values ≤ maxBencodeNodes
  occurs : Occurs input p.position (Bencode.encodeList values ++ ['e'.toUInt8])

theorem fitsList_nil_iff : FitsList input levels p [] ↔
    p.nodes ≤ maxBencodeNodes ∧ input[p.position]? = some 'e'.toUInt8 := by
  constructor
  · intro h
    exact ⟨h.size_le, occurs_singleton_iff.mp h.occurs⟩
  · rintro ⟨hnodes, he⟩
    exact ⟨List.forall_mem_nil _, hnodes, occurs_singleton_iff.mpr he⟩

theorem fitsList_cons_iff {v : Bencode} {values : List Bencode} :
    FitsList input levels p (v :: values) ↔
      Fits input levels p v ∧ FitsList input levels (p.after v) values := by
  constructor
  · rintro ⟨hitems, hsize, hoccurs⟩
    rw [List.forall_mem_cons] at hitems
    rw [Bencode.sizeList, ← add_assoc] at hsize
    rw [Bencode.encodeList, List.append_assoc, occurs_append_iff] at hoccurs
    exact ⟨⟨hitems.1.1, hitems.1.2, (Nat.le_add_right _ _).trans hsize, hoccurs.1⟩,
      hitems.2, hsize, hoccurs.2⟩
  · rintro ⟨hv, hvalues⟩
    refine ⟨List.forall_mem_cons.mpr ⟨⟨hv.canonical, hv.depth_lt⟩, hvalues.items⟩, ?_, ?_⟩
    · rw [Bencode.sizeList, ← add_assoc]
      exact hvalues.size_le
    · rw [Bencode.encodeList, List.append_assoc, occurs_append_iff]
      exact ⟨hv.occurs, hvalues.occurs⟩

theorem Parses.parseValues_eq_ok_iff (h : Parses input levels parseItem) {nodes : List BencodeNode}
    (hnodes : p.nodes ≤ maxBencodeNodes) (hrounds : maxBencodeNodes < p.nodes + rounds) :
    parseValues input parseItem rounds p = .ok (nodes, q) ↔
      ∃ values, FitsList input levels p values ∧ nodes = locateList p.position values ∧
        q = p.afterList values := by
  induction rounds generalizing p nodes with
  | zero => exact absurd hrounds (by omega)
  | succ rounds ih =>
    by_cases he : input[p.position]? = some 'e'.toUInt8
    · rw [parseValues, if_pos he]
      constructor
      · intro hok
        obtain ⟨rfl, rfl⟩ := Prod.mk.inj (Except.ok.inj hok)
        exact ⟨[], fitsList_nil_iff.mpr ⟨hnodes, he⟩, rfl, rfl⟩
      · rintro ⟨values, hvalues, rfl, rfl⟩
        cases values with
        | nil => rfl
        | cons v values =>
          exact absurd he (getElem?_ne_of_occurs_encode (fitsList_cons_iff.mp hvalues).1.occurs)
    · -- each item is counted, so that fewer rounds are enough for the rest
      have hrest {v : Bencode} : maxBencodeNodes < (p.after v).nodes + rounds := by
        have hsize := v.one_le_size
        rw [Parser.nodes_after]
        omega
      rw [parseValues_succ_eq_ok_iff he]
      constructor
      · rintro ⟨node, p', nodes', hitem, hloop, rfl⟩
        obtain ⟨v, hv, rfl, rfl⟩ := (h p node p').mp hitem
        obtain ⟨values, hvalues, rfl, rfl⟩ := (ih hv.size_le hrest).mp hloop
        exact ⟨v :: values, fitsList_cons_iff.mpr ⟨hv, hvalues⟩, rfl,
          (p.afterList_cons v values).symm⟩
      · rintro ⟨values, hvalues, rfl, rfl⟩
        cases values with
        | nil => exact absurd (fitsList_nil_iff.mp hvalues).2 he
        | cons v values =>
          obtain ⟨hv, hvalues⟩ := fitsList_cons_iff.mp hvalues
          exact ⟨_, _, _, (h p _ _).mpr ⟨v, hv, rfl, rfl⟩, (ih hv.size_le hrest).mpr
            ⟨values, hvalues, rfl, p.afterList_cons v values⟩, rfl⟩

theorem exists_digit_of_occurs {key : List UInt8}
    (h : Occurs input position (Bencode.encodeBytes key)) :
    ∃ first, input[position]? = some first ∧ isDigit first = true := by
  obtain ⟨first, rest, hdecimal, hfirst⟩ := exists_decimal_eq_cons key.length
  rw [Bencode.encodeBytes, hdecimal, List.cons_append, occurs_cons_iff] at h
  exact ⟨first, h.1, hfirst⟩

theorem parseEntries_succ_eq_ok_iff (he : input[p.position]? ≠ some 'e'.toUInt8)
    (hinput : input.length < 2 ^ 64) {previous : Option (List UInt8)}
    {entries : List (List UInt8 × BencodeNode)} :
    parseEntries input parseItem (rounds + 1) previous p = .ok (entries, q) ↔
      ∃ key p' node p'' entries', parseBytes input p = .ok (key, p') ∧
        (∀ candidate ∈ previous, candidate < key) ∧ parseItem p' = .ok (node, p'') ∧
        parseEntries input parseItem rounds (some key) p'' = .ok (entries', q) ∧
        entries = (key, node) :: entries' := by
  rw [parseEntries, if_neg he]
  constructor
  · intro h
    split_ifs at h with hdigit
    obtain ⟨⟨key, p'⟩, hkey, h⟩ := Outcome.bind_eq_ok_iff.mp h
    dsimp only at h
    split_ifs at h with hsorted
    obtain ⟨⟨node, p''⟩, hitem, h⟩ := Outcome.bind_eq_ok_iff.mp h
    obtain ⟨⟨entries', q'⟩, hrest, h⟩ := Outcome.bind_eq_ok_iff.mp h
    obtain ⟨rfl, rfl⟩ := Prod.mk.inj (Except.ok.inj h)
    refine ⟨key, p', node, p'', entries', hkey, ?_, hitem, hrest, rfl⟩
    rintro candidate rfl
    simpa using hsorted
  · rintro ⟨key, p', node, p'', entries', hkey, hsorted, hitem, hrest, rfl⟩
    obtain ⟨first, hfirst, hdigit⟩ :=
      exists_digit_of_occurs ((parseBytes_eq_ok_iff hinput).mp hkey).1
    rw [if_neg (by simpa [hfirst] using hdigit), Outcome.bind_eq_ok_iff]
    refine ⟨(key, p'), hkey, ?_⟩
    dsimp only
    rw [if_neg, Outcome.bind_eq_ok_iff]
    · exact ⟨(node, p''), hitem, Outcome.bind_eq_ok_iff.mpr ⟨(entries', q), hrest, rfl⟩⟩
    · cases previous with
      | none => simp
      | some candidate => simpa using hsorted candidate rfl

theorem isChain_toList_append_cons_iff {previous : Option (List UInt8)} {key : List UInt8}
    {keys : List (List UInt8)} :
    (previous.toList ++ key :: keys).IsChain (· < ·) ↔
      (∀ candidate ∈ previous, candidate < key) ∧ (key :: keys).IsChain (· < ·) := by
  cases previous with
  | none => simp
  | some candidate => simp

/-- The parser stands where the entries of a dictionary can be parsed up to its end, behind an entry
with a smaller key if there is one. -/
structure FitsEntries (input : List UInt8) (levels : ℕ) (previous : Option (List UInt8))
    (p : Parser) (entries : List (List UInt8 × Bencode)) : Prop where
  keys : (previous.toList ++ entries.map Prod.fst).IsChain (· < ·)
  items : ∀ entry ∈ entries, entry.2.Canonical ∧ entry.2.depth < levels
  size_le : p.nodes + Bencode.sizeEntries entries ≤ maxBencodeNodes
  occurs : Occurs input p.position (Bencode.encodeEntries entries ++ ['e'.toUInt8])

theorem fitsEntries_nil_iff {previous : Option (List UInt8)} :
    FitsEntries input levels previous p [] ↔
      p.nodes ≤ maxBencodeNodes ∧ input[p.position]? = some 'e'.toUInt8 := by
  constructor
  · intro h
    exact ⟨h.size_le, occurs_singleton_iff.mp h.occurs⟩
  · rintro ⟨hnodes, he⟩
    refine ⟨?_, List.forall_mem_nil _, hnodes, occurs_singleton_iff.mpr he⟩
    cases previous with
    | none => simp
    | some candidate => simp

theorem fitsEntries_cons_iff {previous : Option (List UInt8)} {key : List UInt8} {v : Bencode}
    {entries : List (List UInt8 × Bencode)} :
    FitsEntries input levels previous p ((key, v) :: entries) ↔
      (∀ candidate ∈ previous, candidate < key) ∧
        Occurs input p.position (Bencode.encodeBytes key) ∧
        Fits input levels (p.afterKey key) v ∧
        FitsEntries input levels (some key) ((p.afterKey key).after v) entries := by
  constructor
  · rintro ⟨hkeys, hitems, hsize, hoccurs⟩
    obtain ⟨hsorted, hkeys⟩ := isChain_toList_append_cons_iff.mp hkeys
    rw [List.forall_mem_cons] at hitems
    rw [Bencode.sizeEntries, ← add_assoc] at hsize
    rw [Bencode.encodeEntries, List.append_assoc, List.append_assoc, occurs_append_iff,
      occurs_append_iff] at hoccurs
    exact ⟨hsorted, hoccurs.1,
      ⟨hitems.1.1, hitems.1.2, (Nat.le_add_right _ _).trans hsize, hoccurs.2.1⟩,
      hkeys, hitems.2, hsize, hoccurs.2.2⟩
  · rintro ⟨hsorted, hkey, hv, hentries⟩
    refine ⟨isChain_toList_append_cons_iff.mpr ⟨hsorted, hentries.keys⟩,
      List.forall_mem_cons.mpr ⟨⟨hv.canonical, hv.depth_lt⟩, hentries.items⟩, ?_, ?_⟩
    · rw [Bencode.sizeEntries, ← add_assoc]
      exact hentries.size_le
    · rw [Bencode.encodeEntries, List.append_assoc, List.append_assoc, occurs_append_iff,
        occurs_append_iff]
      exact ⟨hkey, hv.occurs, hentries.occurs⟩

theorem Parses.parseEntries_eq_ok_iff (h : Parses input levels parseItem)
    (hinput : input.length < 2 ^ 64) {previous : Option (List UInt8)}
    {nodes : List (List UInt8 × BencodeNode)} (hnodes : p.nodes ≤ maxBencodeNodes)
    (hrounds : maxBencodeNodes < p.nodes + rounds) :
    parseEntries input parseItem rounds previous p = .ok (nodes, q) ↔
      ∃ entries, FitsEntries input levels previous p entries ∧
        nodes = locateEntries p.position entries ∧ q = p.afterEntries entries := by
  induction rounds generalizing p nodes previous with
  | zero => exact absurd hrounds (by omega)
  | succ rounds ih =>
    by_cases he : input[p.position]? = some 'e'.toUInt8
    · rw [parseEntries, if_pos he]
      constructor
      · intro hok
        obtain ⟨rfl, rfl⟩ := Prod.mk.inj (Except.ok.inj hok)
        exact ⟨[], fitsEntries_nil_iff.mpr ⟨hnodes, he⟩, rfl, rfl⟩
      · rintro ⟨entries, hentries, rfl, rfl⟩
        cases entries with
        | nil => rfl
        | cons entry entries =>
          obtain ⟨first, hfirst, hdigit⟩ :=
            exists_digit_of_occurs (fitsEntries_cons_iff.mp hentries).2.1
          obtain rfl := Option.some.inj (hfirst.symm.trans he)
          exact absurd hdigit (by decide)
    · have hrest {key : List UInt8} {v : Bencode} :
          maxBencodeNodes < ((p.afterKey key).after v).nodes + rounds := by
        have hsize := v.one_le_size
        rw [Parser.nodes_after, Parser.nodes_afterKey]
        omega
      rw [parseEntries_succ_eq_ok_iff he hinput]
      constructor
      · rintro ⟨key, p', node, p'', entries', hkey, hsorted, hitem, hloop, rfl⟩
        obtain ⟨hstands, rfl⟩ := (parseBytes_eq_ok_iff hinput).mp hkey
        obtain ⟨v, hv, rfl, rfl⟩ := (h _ node p'').mp hitem
        obtain ⟨entries, hentries, rfl, rfl⟩ := (ih hv.size_le hrest).mp hloop
        exact ⟨(key, v) :: entries, fitsEntries_cons_iff.mpr ⟨hsorted, hstands, hv, hentries⟩, rfl,
          (p.afterEntries_cons key v entries).symm⟩
      · rintro ⟨entries, hentries, rfl, rfl⟩
        cases entries with
        | nil => exact absurd (fitsEntries_nil_iff.mp hentries).2 he
        | cons entry entries =>
          obtain ⟨key, v⟩ := entry
          obtain ⟨hsorted, hstands, hv, hentries⟩ := fitsEntries_cons_iff.mp hentries
          exact ⟨key, p.afterKey key, _, _, _, (parseBytes_eq_ok_iff hinput).mpr ⟨hstands, rfl⟩,
            hsorted, (h _ _ _).mpr ⟨v, hv, rfl, rfl⟩, (ih hv.size_le hrest).mpr
              ⟨entries, hentries, rfl, p.afterEntries_cons key v entries⟩, rfl⟩

/-! Every item parsed is counted, so the loops end before they have used up their rounds: with more
rounds they return the same. -/

/-- Items are counted, and not more than there may be. -/
def Counts (parseItem : Parser → Except BencodeError (BencodeNode × Parser)) : Prop :=
  ∀ p node q, parseItem p = .ok (node, q) → p.nodes < q.nodes ∧ q.nodes ≤ maxBencodeNodes

theorem Parses.counts (h : Parses input levels parseItem) : Counts parseItem := by
  intro p node q hitem
  obtain ⟨v, hv, -, rfl⟩ := (h p node q).mp hitem
  exact ⟨Nat.lt_add_of_pos_right v.one_le_size, hv.size_le⟩

theorem Counts.parseValues_add_rounds (h : Counts parseItem) (hnodes : p.nodes ≤ maxBencodeNodes)
    (hrounds : maxBencodeNodes < p.nodes + rounds) (k : ℕ) :
    parseValues input parseItem (rounds + k) p = parseValues input parseItem rounds p := by
  induction rounds generalizing p with
  | zero => exact absurd hrounds (by omega)
  | succ rounds ih =>
    rw [Nat.add_right_comm, parseValues, parseValues]
    cases hitem : parseItem p with
    | error e => rfl
    | ok item =>
      have hcount := h p item.1 item.2 hitem
      have hrest := ih hcount.2 (by omega)
      simp only [bind, Except.bind, hrest]

theorem Counts.parseEntries_add_rounds (h : Counts parseItem) (hinput : input.length < 2 ^ 64)
    {previous : Option (List UInt8)} (hnodes : p.nodes ≤ maxBencodeNodes)
    (hrounds : maxBencodeNodes < p.nodes + rounds) (k : ℕ) :
    parseEntries input parseItem (rounds + k) previous p =
      parseEntries input parseItem rounds previous p := by
  induction rounds generalizing p previous with
  | zero => exact absurd hrounds (by omega)
  | succ rounds ih =>
    rw [Nat.add_right_comm, parseEntries, parseEntries]
    cases hkey : parseBytes input p with
    | error e => rfl
    | ok parsed =>
      obtain ⟨key, p'⟩ := parsed
      obtain ⟨-, rfl⟩ := (parseBytes_eq_ok_iff hinput).mp hkey
      cases hitem : parseItem { p with position := p.position + (Bencode.encodeBytes key).length }
        with
      | error e => simp only [bind, Except.bind, hitem]
      | ok item =>
        have hcount := h _ item.1 item.2 hitem
        dsimp only at hcount
        simp only [bind, Except.bind, hitem, ih hcount.2 (by omega)]

/-! ### Nodes -/

theorem Parses.parseList_eq_ok_iff (h : Parses input levels parseItem) {value : BencodeValue}
    (hnodes : p.nodes ≤ maxBencodeNodes) :
    parseList input parseItem p = .ok (value, q) ↔
      ∃ values, FitsList input levels { p with position := p.position + 1 } values ∧
        value = .list (locateList (p.position + 1) values) ∧
        q = ⟨(({ p with position := p.position + 1 } : Parser).afterList values).position + 1,
          (({ p with position := p.position + 1 } : Parser).afterList values).nodes⟩ := by
  have hloop (nodes : List BencodeNode) (q : Parser) :
      parseValues input parseItem p.rounds { p with position := p.position + 1 } = .ok (nodes, q) ↔
        _ := h.parseValues_eq_ok_iff hnodes p.lt_nodes_add_rounds
  rw [parseList, Outcome.bind_eq_ok_iff]
  constructor
  · rintro ⟨⟨nodes, q'⟩, hvalues, hok⟩
    obtain ⟨rfl, rfl⟩ := Prod.mk.inj (Except.ok.inj hok)
    obtain ⟨values, hfits, rfl, rfl⟩ := (hloop nodes q').mp hvalues
    exact ⟨values, hfits, rfl, rfl⟩
  · rintro ⟨values, hfits, rfl, rfl⟩
    exact ⟨(_, _), (hloop _ _).mpr ⟨values, hfits, rfl, rfl⟩, rfl⟩

theorem Parses.parseDictionary_eq_ok_iff (h : Parses input levels parseItem)
    (hinput : input.length < 2 ^ 64) {value : BencodeValue} (hnodes : p.nodes ≤ maxBencodeNodes) :
    parseDictionary input parseItem p = .ok (value, q) ↔
      ∃ entries, FitsEntries input levels none { p with position := p.position + 1 } entries ∧
        value = .dictionary (locateEntries (p.position + 1) entries) ∧
        q = ⟨(({ p with position := p.position + 1 } : Parser).afterEntries entries).position + 1,
          (({ p with position := p.position + 1 } : Parser).afterEntries entries).nodes⟩ := by
  have hloop (nodes : List (List UInt8 × BencodeNode)) (q : Parser) :
      parseEntries input parseItem p.rounds none { p with position := p.position + 1 } =
        .ok (nodes, q) ↔ _ := h.parseEntries_eq_ok_iff hinput hnodes p.lt_nodes_add_rounds
  rw [parseDictionary, Outcome.bind_eq_ok_iff]
  constructor
  · rintro ⟨⟨nodes, q'⟩, hentries, hok⟩
    obtain ⟨rfl, rfl⟩ := Prod.mk.inj (Except.ok.inj hok)
    obtain ⟨entries, hfits, rfl, rfl⟩ := (hloop nodes q').mp hentries
    exact ⟨entries, hfits, rfl, rfl⟩
  · rintro ⟨entries, hfits, rfl, rfl⟩
    exact ⟨(_, _), (hloop _ _).mpr ⟨entries, hfits, rfl, rfl⟩, rfl⟩

theorem fits_bytes_iff {value : List UInt8} :
    Fits input (levels + 1) p (.bytes value) ↔
      p.nodes < maxBencodeNodes ∧ Occurs input p.position (Bencode.encodeBytes value) :=
  ⟨fun h ↦ ⟨h.size_le, h.occurs⟩, fun h ↦ ⟨.bytes value, Nat.succ_pos levels, h.1, h.2⟩⟩

theorem fits_integer_iff {z : ℤ} :
    Fits input (levels + 1) p (.integer z) ↔
      (-2 ^ 63 ≤ z ∧ z < 2 ^ 63) ∧ p.nodes < maxBencodeNodes ∧
        input[p.position]? = some 'i'.toUInt8 ∧
        Occurs input (p.position + 1) (signed z ++ ['e'.toUInt8]) := by
  rw [← occurs_cons_iff]
  constructor
  · rintro ⟨_ | ⟨hrange⟩, -, hsize, hoccurs⟩
    exact ⟨hrange, hsize, hoccurs⟩
  · rintro ⟨hrange, hsize, hoccurs⟩
    exact ⟨.integer hrange, Nat.succ_pos levels, hsize, hoccurs⟩

theorem fits_list_iff {values : List Bencode} :
    Fits input (levels + 1) p (.list values) ↔ input[p.position]? = some 'l'.toUInt8 ∧
      FitsList input levels ⟨p.position + 1, p.nodes + 1⟩ values := by
  constructor
  · rintro ⟨_ | _ | ⟨hcanonical⟩, hdepth, hsize, hoccurs⟩
    have hdepths := Bencode.depthList_le_iff.mp (Nat.le_of_lt_succ hdepth)
    obtain ⟨htoken, hoccurs⟩ := occurs_cons_iff.mp hoccurs
    rw [Bencode.size, ← add_assoc] at hsize
    exact ⟨htoken, fun v hv ↦ ⟨hcanonical v hv, hdepths v hv⟩, hsize, hoccurs⟩
  · rintro ⟨htoken, hitems, hsize, hoccurs⟩
    have hdepths := Bencode.depthList_le_iff.mpr fun v hv ↦ (hitems v hv).2
    refine ⟨.list fun v hv ↦ (hitems v hv).1, Nat.lt_succ_of_le hdepths, ?_,
      occurs_cons_iff.mpr ⟨htoken, hoccurs⟩⟩
    rw [Bencode.size, ← add_assoc]
    exact hsize

theorem fits_dictionary_iff {entries : List (List UInt8 × Bencode)} :
    Fits input (levels + 1) p (.dictionary entries) ↔ input[p.position]? = some 'd'.toUInt8 ∧
      FitsEntries input levels none ⟨p.position + 1, p.nodes + 1⟩ entries := by
  constructor
  · rintro ⟨_ | _ | _ | ⟨hkeys, hcanonical⟩, hdepth, hsize, hoccurs⟩
    have hdepths := Bencode.depthEntries_le_iff.mp (Nat.le_of_lt_succ hdepth)
    obtain ⟨htoken, hoccurs⟩ := occurs_cons_iff.mp hoccurs
    rw [Bencode.size, ← add_assoc] at hsize
    exact ⟨htoken, hkeys, fun entry hentry ↦ ⟨hcanonical entry hentry, hdepths entry hentry⟩, hsize,
      hoccurs⟩
  · rintro ⟨htoken, hkeys, hitems, hsize, hoccurs⟩
    have hdepths := Bencode.depthEntries_le_iff.mpr fun entry hentry ↦ (hitems entry hentry).2
    refine ⟨.dictionary hkeys fun entry hentry ↦ (hitems entry hentry).1,
      Nat.lt_succ_of_le hdepths, ?_, occurs_cons_iff.mpr ⟨htoken, hoccurs⟩⟩
    rw [Bencode.size, ← add_assoc]
    exact hsize

/-- A byte string begins with a digit, and so with none of the letters. -/
theorem parseToken_of_digit {token : UInt8} (htoken : input[p.position]? = some token)
    (hdigit : isDigit token = true) {bytes : List UInt8}
    (hbytes : parseBytes input p = .ok (bytes, q)) :
    parseToken input parseItem p = .ok (.bytes bytes, q) := by
  have hletter {letter : UInt8} (hl : isDigit letter = false) : ¬token = letter := by
    rintro rfl
    rw [hl] at hdigit
    cases hdigit
  rw [parseToken, htoken]
  dsimp only
  rw [if_neg (hletter (by decide)), if_neg (hletter (by decide)), if_neg (hletter (by decide)),
    if_pos hdigit, hbytes]
  rfl

/-- One more level. The node itself has already been counted. -/
theorem Parses.parseToken_eq_ok_iff (h : Parses input levels parseItem)
    (hinput : input.length < 2 ^ 64) {value : BencodeValue} (hnodes : p.nodes < maxBencodeNodes) :
    parseToken input parseItem { p with nodes := p.nodes + 1 } = .ok (value, q) ↔
      ∃ v, Fits input (levels + 1) p v ∧ value = locateValue p.position v ∧ q = p.after v := by
  have hvalues {value : BencodeValue} {q : Parser} :
      parseList input parseItem { p with nodes := p.nodes + 1 } = .ok (value, q) ↔ _ :=
    h.parseList_eq_ok_iff hnodes
  have hentries {value : BencodeValue} {q : Parser} :
      parseDictionary input parseItem { p with nodes := p.nodes + 1 } = .ok (value, q) ↔ _ :=
    h.parseDictionary_eq_ok_iff hinput hnodes
  constructor
  · intro hok
    rw [parseToken] at hok
    split at hok
    · cases hok
    next token htoken =>
    split_ifs at hok with hinteger hlist hdictionary hdigit
    · obtain ⟨z, hrange, hoccurs, rfl, rfl⟩ := parseInteger_eq_ok_iff.mp hok
      refine ⟨.integer z, fits_integer_iff.mpr ⟨hrange, hnodes, hinteger ▸ htoken, hoccurs⟩, rfl,
        ?_⟩
      rw [Parser.after_integer]
    · obtain ⟨values, hfits, rfl, rfl⟩ := hvalues.mp hok
      exact ⟨.list values, fits_list_iff.mpr ⟨hlist ▸ htoken, hfits⟩, rfl,
        (p.after_list values).symm⟩
    · obtain ⟨entries, hfits, rfl, rfl⟩ := hentries.mp hok
      exact ⟨.dictionary entries, fits_dictionary_iff.mpr ⟨hdictionary ▸ htoken, hfits⟩, rfl,
        (p.after_dictionary entries).symm⟩
    · obtain ⟨⟨bytes, q'⟩, hbytes, hok⟩ := Outcome.bind_eq_ok_iff.mp hok
      obtain ⟨hoccurs, rfl⟩ := (parseBytes_eq_ok_iff hinput).mp hbytes
      obtain ⟨rfl, rfl⟩ := Prod.mk.inj (Except.ok.inj hok)
      exact ⟨.bytes bytes, fits_bytes_iff.mpr ⟨hnodes, hoccurs⟩, rfl, rfl⟩
  · rintro ⟨v, hv, rfl, rfl⟩
    cases v with
    | bytes value =>
      obtain ⟨-, hoccurs⟩ := fits_bytes_iff.mp hv
      obtain ⟨token, htoken, hdigit⟩ := exists_digit_of_occurs hoccurs
      exact parseToken_of_digit (p := { p with nodes := p.nodes + 1 }) htoken hdigit
        ((parseBytes_eq_ok_iff hinput).mpr ⟨hoccurs, rfl⟩)
    | integer z =>
      obtain ⟨hrange, -, htoken, hoccurs⟩ := fits_integer_iff.mp hv
      rw [parseToken, htoken, Parser.after_integer]
      dsimp only
      rw [if_pos rfl]
      exact parseInteger_eq_ok_iff.mpr ⟨z, hrange, hoccurs, rfl, rfl⟩
    | list values =>
      obtain ⟨htoken, hfits⟩ := fits_list_iff.mp hv
      rw [parseToken, htoken, Parser.after_list]
      dsimp only
      rw [if_neg (by decide), if_pos rfl]
      exact hvalues.mpr ⟨values, hfits, rfl, rfl⟩
    | dictionary entries =>
      obtain ⟨htoken, hfits⟩ := fits_dictionary_iff.mp hv
      rw [parseToken, htoken, Parser.after_dictionary]
      dsimp only
      rw [if_neg (by decide), if_neg (by decide), if_pos rfl]
      exact hentries.mpr ⟨entries, hfits, rfl, rfl⟩

theorem parses_parseNode (hinput : input.length < 2 ^ 64) (levels : ℕ) :
    Parses input levels (parseNode input levels) := by
  induction levels with
  | zero =>
    intro p node q
    refine iff_of_false (fun hok ↦ by cases hok) ?_
    rintro ⟨v, hv, -⟩
    exact absurd hv.depth_lt (Nat.not_lt_zero _)
  | succ levels ih =>
    intro p node q
    rw [parseNode]
    dsimp only
    by_cases hnodes : maxBencodeNodes < p.nodes + 1
    · rw [if_pos hnodes]
      refine iff_of_false (fun hok ↦ by cases hok) ?_
      rintro ⟨v, hv, -⟩
      have hsize := v.one_le_size
      have hsize' := hv.size_le
      omega
    · rw [if_neg hnodes, Outcome.bind_eq_ok_iff]
      have hlt : p.nodes < maxBencodeNodes := by omega
      constructor
      · rintro ⟨⟨value, q'⟩, htoken, hok⟩
        obtain ⟨v, hv, rfl, rfl⟩ := (ih.parseToken_eq_ok_iff hinput hlt).mp htoken
        obtain ⟨rfl, rfl⟩ := Prod.mk.inj (Except.ok.inj hok)
        exact ⟨v, hv, rfl, rfl⟩
      · rintro ⟨v, hv, rfl, rfl⟩
        exact ⟨(_, _), (ih.parseToken_eq_ok_iff hinput hlt).mpr ⟨v, hv, rfl, rfl⟩, rfl⟩

/-- The parser returns the value that the input encodes, located at the beginning. -/
theorem parseBencode_eq_ok_iff {node : BencodeNode} :
    parseBencode input = .ok node ↔
      ∃ v : Bencode, (input.length ≤ maxBencodeInput ∧ v.Canonical ∧ v.encode = input ∧
        v.depth ≤ maxBencodeDepth ∧ v.size ≤ maxBencodeNodes) ∧ node = locate 0 v := by
  rw [parseBencode]
  by_cases hlarge : maxBencodeInput < input.length
  · rw [if_pos hlarge]
    refine iff_of_false (fun hok ↦ by cases hok) ?_
    rintro ⟨v, ⟨hlength, -⟩, -⟩
    exact hlength.not_gt hlarge
  have hlt : input.length < 2 ^ 64 := by
    rw [maxBencodeInput] at hlarge
    omega
  have hparses := parses_parseNode hlt (maxBencodeDepth + 1)
  rw [if_neg hlarge, Outcome.bind_eq_ok_iff]
  constructor
  · rintro ⟨⟨root, p⟩, hroot, hok⟩
    obtain ⟨v, hv, rfl, rfl⟩ := (hparses _ _ _).mp hroot
    dsimp only at hok
    split_ifs at hok with hend
    obtain rfl := Except.ok.inj hok
    have hlength : v.encode.length = input.length := by simpa [Parser.after] using hend
    refine ⟨v, ⟨not_lt.mp hlarge, hv.canonical, hv.occurs.eq_of_length hlength,
      Nat.le_of_lt_succ hv.depth_lt, ?_⟩, rfl⟩
    simpa using hv.size_le
  · rintro ⟨v, ⟨hlength, hcanonical, rfl, hdepth, hsize⟩, rfl⟩
    have hv : Fits v.encode (maxBencodeDepth + 1) ⟨0, 0⟩ v :=
      ⟨hcanonical, Nat.lt_succ_of_le hdepth, by simpa using hsize, List.prefix_rfl⟩
    refine ⟨(_, _), (hparses _ _ _).mpr ⟨v, hv, rfl, rfl⟩, ?_⟩
    dsimp only
    rw [if_neg (by simp [Parser.after])]

end Spec

/-- **Exactly canonical bencoding is accepted.** The parser returns a value exactly if the input is
its encoding and both are within the bounds. So the value gives back the input, and no two inputs
give the same value. -/
theorem parseBencode_accepts_canonical (input : List UInt8) :
    (∀ v : Bencode, (∃ node, parseBencode input = .ok node ∧ node.plain = v) ↔
      input.length ≤ maxBencodeInput ∧ v.Canonical ∧ v.encode = input ∧
        v.depth ≤ maxBencodeDepth ∧ v.size ≤ maxBencodeNodes) ∧
    (∀ node, parseBencode input = .ok node → node.plain.encode = input) ∧
    ∀ (input' : List UInt8) (node node' : BencodeNode), parseBencode input = .ok node →
      parseBencode input' = .ok node' → input ≠ input' → node.plain ≠ node'.plain := by
  have hencode {input : List UInt8} {node : BencodeNode} (h : parseBencode input = .ok node) :
      node.plain.encode = input := by
    obtain ⟨v, hv, rfl⟩ := parseBencode_eq_ok_iff.mp h
    rw [plain_locate]
    exact hv.2.2.1
  refine ⟨fun v ↦ ⟨?_, ?_⟩, fun node h ↦ hencode h, ?_⟩
  · rintro ⟨node, hok, rfl⟩
    obtain ⟨v, hv, rfl⟩ := parseBencode_eq_ok_iff.mp hok
    rwa [plain_locate]
  · intro hv
    exact ⟨locate 0 v, parseBencode_eq_ok_iff.mpr ⟨v, hv, rfl⟩, plain_locate 0 v⟩
  · intro input' node node' hok hok' hne heq
    refine hne ?_
    rw [← hencode hok, heq, hencode hok']

-- the inputs of the repository's adversarial test
example : ["i-0e", "i9223372036854775808e", "999999999999999999999999:x", "d1:ai1e1:ai2ee",
    "d1:bi1e1:ai2ee", "l1:a"].all (fun text ↦ !(parseBencode (utf8 text)).isOk) = true := by
  decide +kernel

end TripTorrent.Interop
