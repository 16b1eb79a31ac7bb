import Mathlib.Data.List.GetD
import Mathlib.Data.Nat.Init
import Mathlib.Tactic.WLOG
import ObjectStore.Sources

/-!
# The identifiers that random UUIDs make

An identifier is drawn by a loop that goes through the bytes of one UUID after another until it has ten symbols. What it has after a number of UUIDs are the first ten symbols that their bytes stand for, so the loop ends with the identifier that is drawn from sufficiently many of them, and five are always enough. But two bytes of a UUID are not random. The seventh has the version in its upper half; it is never dropped, and it stands for one of sixteen symbols only. At most six symbols come before it, so one of the first seven symbols of every identifier is among those sixteen. Every identifier of which this is so can be drawn, from a single UUID.
-/

namespace ObjectStore

namespace Identifier

variable {bytes : List UInt8} {stream : Nat → List UInt8}

/-! ### The loop -/

/-- The symbol of a byte that is not dropped. -/
def symbol (byte : UInt8) : Char := alphabet.getD (byte.toNat % 62) '0'

/-- One byte in the loop: it adds its symbol if it is not dropped and the identifier is not full. -/
def push (id : List Char) (byte : UInt8) : List Char :=
  if byte.toNat < byteLimit ∧ id.length < length then id ++ [symbol byte] else id

/-- The loop over a stream of UUIDs, from a round on and with some symbols: it ends once there are enough of them, and it goes through the bytes of one more UUID until then. -/
inductive Fills (stream : Nat → List UInt8) : Nat → List Char → List Char → Prop
  | full {round : Nat} {id : List Char} (h : length ≤ id.length) : Fills stream round id id
  | more {round : Nat} {id filled : List Char} (h : id.length < length)
      (next : Fills stream (round + 1) ((stream round).foldl push id) filled) : Fills stream round id filled

theorem symbols_nil : symbols [] = [] := rfl

theorem symbols_append (first second : List UInt8) : symbols (first ++ second) = symbols first ++ symbols second := by
  rw [symbols, List.filter_append, List.map_append]
  rfl

theorem symbols_cons (byte : UInt8) (bytes : List UInt8) :
    symbols (byte :: bytes) = if byte.toNat < byteLimit then symbol byte :: symbols bytes else symbols bytes := by
  rw [symbols, List.filter_cons]
  by_cases hkept : byte.toNat < byteLimit
  · rw [if_pos (decide_eq_true hkept), if_pos hkept]
    rfl
  · rw [if_neg (mt of_decide_eq_true hkept), if_neg hkept]
    rfl

theorem length_symbols_le (bytes : List UInt8) : (symbols bytes).length ≤ bytes.length := by
  rw [symbols, List.length_map]
  exact List.length_filter_le _ bytes

theorem foldl_push {id : List Char} (h : id.length ≤ length) : bytes.foldl push id = (id ++ symbols bytes).take length := by
  induction bytes generalizing id with
  | nil => rw [List.foldl_nil, symbols_nil, List.append_nil, List.take_of_length_le h]
  | cons byte rest ih =>
    rw [List.foldl_cons, symbols_cons, push]
    by_cases hkept : byte.toNat < byteLimit
    · rw [if_pos hkept]
      by_cases hroom : id.length < length
      · have hlonger : (id ++ [symbol byte]).length ≤ length := by
          rw [List.length_append]
          exact hroom
        rw [if_pos ⟨hkept, hroom⟩, ih hlonger, List.append_assoc, List.singleton_append]
      · have hfull : id.length = length := Nat.le_antisymm h (Nat.le_of_not_lt hroom)
        rw [if_neg fun hadds => hroom hadds.2, ih h, ← hfull, List.take_left, List.take_left]
    · rw [if_neg hkept, if_neg fun hadds => hkept hadds.1, ih h]

/-- The symbols that the first UUIDs of a stream stand for. -/
def drawn (stream : Nat → List UInt8) (count : Nat) : List Char := symbols ((List.range count).map stream).flatten

theorem drawn_succ (stream : Nat → List UInt8) (count : Nat) : drawn stream (count + 1) = drawn stream count ++ symbols (stream count) := by
  rw [drawn, List.range_succ, List.map_append, List.flatten_append, symbols_append, List.map_singleton, List.flatten_singleton]
  rfl

theorem drawn_prefix {few many : Nat} (h : few ≤ many) : drawn stream few <+: drawn stream many := by
  induction many, h using Nat.le_induction with
  | base => exact List.prefix_rfl
  | succ many _ ih =>
    rw [drawn_succ]
    exact ih.trans (List.prefix_append _ _)

theorem take_drawn {few many : Nat} (hfew : length ≤ (drawn stream few).length) (hmany : length ≤ (drawn stream many).length) :
    (drawn stream few).take length = (drawn stream many).take length := by
  wlog h : few ≤ many generalizing few many
  · exact (this hmany hfew (Nat.le_of_not_le h)).symm
  · obtain ⟨rest, hrest⟩ : drawn stream few <+: drawn stream many := drawn_prefix h
    rw [← hrest, List.take_append_of_le_length hfew]

theorem foldl_push_drawn (round : Nat) :
    (stream round).foldl push ((drawn stream round).take length) = (drawn stream (round + 1)).take length := by
  rw [foldl_push (List.length_take_le _ _), drawn_succ, List.take_append, List.take_append, List.take_take, Nat.min_self,
    List.length_take]
  congr 2
  omega

/-- From what the first UUIDs gave the loop goes on to what sufficiently many give. -/
theorem fills_drawn {round extra : Nat} (h : length ≤ (drawn stream (round + extra)).length) :
    Fills stream round ((drawn stream round).take length) ((drawn stream (round + extra)).take length) := by
  by_cases hround : length ≤ (drawn stream round).length
  · rw [take_drawn h hround]
    exact .full (Nat.le_of_eq (List.length_take_of_le hround).symm)
  · cases extra with
    | zero => exact absurd h hround
    | succ extra =>
      have hlater : round + (extra + 1) = round + 1 + extra := by
        omega
      refine .more ?_ ?_
      · rw [List.length_take]
        omega
      · rw [hlater] at h ⊢
        rw [foldl_push_drawn]
        exact fills_drawn h
termination_by extra

theorem exists_drawn_of_fills {round : Nat} {id filled : List Char} (h : Fills stream round id filled)
    (hid : id = (drawn stream round).take length) :
    ∃ count, length ≤ (drawn stream count).length ∧ filled = (drawn stream count).take length := by
  induction h with
  | full hfull =>
    refine ⟨_, ?_, hid⟩
    rw [hid, List.length_take] at hfull
    omega
  | more _ _ ih =>
    subst hid
    exact ih (foldl_push_drawn _)

theorem fills_iff {filled : List Char} :
    Fills stream 0 [] filled ↔ ∃ count, length ≤ (drawn stream count).length ∧ filled = (drawn stream count).take length := by
  refine ⟨fun h => exists_drawn_of_fills h rfl, ?_⟩
  rintro ⟨count, hlength, rfl⟩
  have hfills : Fills stream 0 ((drawn stream 0).take length) ((drawn stream (0 + count)).take length) :=
    fills_drawn (by rwa [Nat.zero_add])
  rwa [Nat.zero_add] at hfills

/-- Whether an identifier is drawn from a stream of UUIDs, from as many of them as it takes. -/
def Generates (stream : Nat → List UInt8) (id : String) : Prop := ∃ count, ofUuids? ((List.range count).map stream) = some id

theorem ofUuids?_eq_some_iff {count : Nat} {id : String} :
    ofUuids? ((List.range count).map stream) = some id ↔
      length ≤ (drawn stream count).length ∧ id.toList = (drawn stream count).take length := by
  have hlength : ((drawn stream count).take length).length = length ↔ length ≤ (drawn stream count).length := by
    rw [List.length_take]
    omega
  change (if ((drawn stream count).take length).length = length then some (String.ofList ((drawn stream count).take length)) else none)
    = some id ↔ _
  rw [Option.ite_none_right_eq_some, hlength, Option.some_inj, ← String.toList_inj, String.toList_ofList, eq_comm (a := id.toList)]

theorem fills_iff_generates {id : String} : Fills stream 0 [] id.toList ↔ Generates stream id := by
  rw [fills_iff, Generates]
  exact exists_congr fun count => ofUuids?_eq_some_iff.symm

/-! ### Random UUIDs -/

/-- A UUID of random bytes: sixteen of them, of which the seventh has the version four in its upper half and the ninth begins with the bits of the variant. -/
structure IsRandomUuid (uuid : List UInt8) : Prop where
  length : uuid.length = 16
  version : 0x40 ≤ (uuid.getD 6 0).toNat ∧ (uuid.getD 6 0).toNat ≤ 0x4f
  variant : 0x80 ≤ (uuid.getD 8 0).toNat ∧ (uuid.getD 8 0).toNat ≤ 0xbf

theorem isRandomUuid_iff {uuid : List UInt8} :
    IsRandomUuid uuid ↔ ∃ first version between variant last, first.length = 6 ∧ last.length = 7 ∧
      (0x40 ≤ version.toNat ∧ version.toNat ≤ 0x4f) ∧ (0x80 ≤ variant.toNat ∧ variant.toNat ≤ 0xbf) ∧
      uuid = first ++ version :: between :: variant :: last := by
  constructor
  · rintro ⟨hlength, hversion, hvariant⟩
    rw [List.getD_eq_getElem _ _ (by omega)] at hversion hvariant
    refine ⟨uuid.take 6, uuid[6], uuid[7], uuid[8], uuid.drop 9, ?_, ?_, hversion, hvariant, ?_⟩
    · rw [List.length_take, hlength]
      rfl
    · rw [List.length_drop, hlength]
    · rw [← List.drop_eq_getElem_cons (i := 8), ← List.drop_eq_getElem_cons (i := 7), ← List.drop_eq_getElem_cons (i := 6),
        List.take_append_drop]
  · rintro ⟨first, version, between, variant, last, hfirst, hlast, hversion, hvariant, rfl⟩
    refine ⟨?_, ?_, ?_⟩
    · simp only [List.length_append, List.length_cons, hfirst, hlast]
    · rwa [List.getD_append_right _ _ _ _ (Nat.le_of_eq hfirst), hfirst]
    · rwa [List.getD_append_right _ _ _ _ (by omega), hfirst]

/-- The symbols that the seventh byte can stand for. -/
def versionSymbols : List Char := "23456789ABCDEFGH".toList

theorem mem_iff_getD {chars : List Char} {c : Char} : c ∈ chars ↔ ∃ n, n < chars.length ∧ chars.getD n '0' = c := by
  rw [List.mem_iff_getElem]
  constructor
  · rintro ⟨n, hn, hc⟩
    exact ⟨n, hn, (List.getD_eq_getElem _ _ hn).trans hc⟩
  · rintro ⟨n, hn, hc⟩
    exact ⟨n, hn, (List.getD_eq_getElem _ _ hn).symm.trans hc⟩

/-- The bytes with the version stand for the symbols from the third on, since 64 is two more than 62. -/
theorem getD_versionSymbols : ∀ n < 16, versionSymbols.getD n '0' = alphabet.getD ((0x40 + n) % 62) '0' := by
  decide

theorem symbol_ofNat {n : Nat} (h : n < 256) : symbol (.ofNat n) = alphabet.getD (n % 62) '0' := by
  rw [symbol, UInt8.toNat_ofNat_of_lt' h]

theorem symbol_mem_versionSymbols {byte : UInt8} (h : 0x40 ≤ byte.toNat ∧ byte.toNat ≤ 0x4f) : symbol byte ∈ versionSymbols := by
  have hbyte : byte.toNat = 0x40 + (byte.toNat - 0x40) := by
    omega
  refine mem_iff_getD.mpr ⟨byte.toNat - 0x40, show _ < 16 by omega, ?_⟩
  rw [getD_versionSymbols _ (by omega), symbol, ← hbyte]

theorem exists_version {c : Char} (h : c ∈ versionSymbols) :
    ∃ byte : UInt8, (0x40 ≤ byte.toNat ∧ byte.toNat ≤ 0x4f) ∧ symbol byte = c := by
  obtain ⟨n, hn, rfl⟩ := mem_iff_getD.mp h
  have hlt : n < 16 := hn
  refine ⟨.ofNat (0x40 + n), ?_, ?_⟩
  · rw [UInt8.toNat_ofNat_of_lt' (show _ < 256 by omega)]
    omega
  · rw [symbol_ofNat (by omega), getD_versionSymbols n hlt]

/-- The bytes with the variant stand for all symbols, since there are more than 62 of them in a row. -/
theorem exists_variant {c : Char} (h : c ∈ alphabet) :
    ∃ byte : UInt8, (0x80 ≤ byte.toNat ∧ byte.toNat ≤ 0xbf) ∧ symbol byte = c := by
  obtain ⟨n, hn, rfl⟩ := mem_iff_getD.mp h
  have hlt : n < 62 := hn
  refine ⟨.ofNat (0x80 + (n + 58) % 62), ?_, ?_⟩
  · rw [UInt8.toNat_ofNat_of_lt' (show _ < 256 by omega)]
    omega
  · have hsame : (0x80 + (n + 58) % 62) % 62 = n := by
      omega
    rw [symbol_ofNat (by omega), hsame]

theorem symbols_cons_of_lt {byte : UInt8} (h : byte.toNat < byteLimit) (bytes : List UInt8) :
    symbols (byte :: bytes) = symbol byte :: symbols bytes := by
  rw [symbols_cons, if_pos h]

theorem exists_variants {chars : List Char} (h : ∀ c ∈ chars, c ∈ alphabet) :
    ∃ bytes, symbols bytes = chars ∧ bytes.length = chars.length ∧ ∀ byte ∈ bytes, 0x80 ≤ byte.toNat ∧ byte.toNat ≤ 0xbf := by
  induction chars with
  | nil => exact ⟨[], rfl, rfl, nofun⟩
  | cons c chars ih =>
    obtain ⟨hc, hchars⟩ := List.forall_mem_cons.mp h
    obtain ⟨byte, hbyte, rfl⟩ := exists_variant hc
    obtain ⟨bytes, rfl, hlength, hbytes⟩ := ih hchars
    refine ⟨byte :: bytes, symbols_cons_of_lt ?_ bytes, congrArg (· + 1) hlength, List.forall_mem_cons.mpr ⟨hbyte, hbytes⟩⟩
    exact Nat.lt_of_le_of_lt hbyte.2 (by decide)

theorem symbols_replicate (count : Nat) : symbols (List.replicate count 0xff) = [] := by
  rw [symbols, List.filter_replicate]
  rfl

/-! ### What can be drawn -/

/-- What a random UUID stands for: at most six symbols, and then one of the version, and then at least one more. -/
theorem symbols_of_isRandomUuid {uuid : List UInt8} (h : IsRandomUuid uuid) :
    ∃ before c after, before.length ≤ 6 ∧ c ∈ versionSymbols ∧ after ≠ [] ∧ symbols uuid = before ++ c :: after := by
  obtain ⟨first, version, between, variant, last, hfirst, -, hversion, hvariant, rfl⟩ := isRandomUuid_iff.mp h
  have hversionKept : version.toNat < byteLimit := Nat.lt_of_le_of_lt hversion.2 (by decide)
  have hvariantKept : variant.toNat < byteLimit := Nat.lt_of_le_of_lt hvariant.2 (by decide)
  refine ⟨symbols first, symbol version, symbols [between] ++ symbol variant :: symbols last, ?_, symbol_mem_versionSymbols hversion,
    by simp, ?_⟩
  · exact hfirst ▸ length_symbols_le first
  · have hsplit : first ++ version :: between :: variant :: last = first ++ version :: ([between] ++ variant :: last) := rfl
    rw [hsplit, symbols_append, symbols_cons_of_lt hversionKept, symbols_append, symbols_cons_of_lt hvariantKept]

theorem le_length_drawn (hrandom : ∀ round, IsRandomUuid (stream round)) (count : Nat) : 2 * count ≤ (drawn stream count).length := by
  induction count with
  | zero => exact Nat.zero_le _
  | succ count ih =>
    obtain ⟨before, c, after, -, -, hafter, hsymbols⟩ := symbols_of_isRandomUuid (hrandom count)
    have hpositive := List.length_pos_iff.mpr hafter
    rw [drawn_succ, hsymbols, List.length_append, List.length_append, List.length_cons]
    omega

/-- Five random UUIDs are enough for an identifier, and no further ones make another. -/
theorem generates_iff_of_random (hrandom : ∀ round, IsRandomUuid (stream round)) (id : String) :
    ∃ made, ofUuids? ((List.range 5).map stream) = some made ∧ (Generates stream id ↔ id = made) := by
  have hfive : length ≤ (drawn stream 5).length := le_length_drawn hrandom 5
  have hmade : ofUuids? ((List.range 5).map stream) = some (.ofList ((drawn stream 5).take length)) :=
    ofUuids?_eq_some_iff.mpr ⟨hfive, String.toList_ofList⟩
  refine ⟨_, hmade, ?_, ?_⟩
  · rintro ⟨count, hcount⟩
    obtain ⟨hlength, hid⟩ := ofUuids?_eq_some_iff.mp hcount
    rw [← String.ofList_toList (s := id), hid, take_drawn hlength hfive]
  · rintro rfl
    exact ⟨5, hmade⟩

/-- Whether a text has the length and the symbols of an identifier. -/
def IsIdentifier (id : String) : Prop := id.toList.length = length ∧ ∀ c ∈ id.toList, c ∈ alphabet

theorem isIdentifier_of_all {id : String} (hlength : id.toList.length = length) (hall : id.toList.all alphabet.contains = true) :
    IsIdentifier id :=
  ⟨hlength, fun c hc => List.contains_iff_mem.mp (List.all_eq_true.mp hall c hc)⟩

theorem symbols_subset (bytes : List UInt8) : ∀ c ∈ symbols bytes, c ∈ alphabet := by
  intro c hc
  obtain ⟨byte, -, rfl⟩ := List.mem_map.mp hc
  exact mem_iff_getD.mpr ⟨_, Nat.mod_lt _ (by decide), rfl⟩

theorem isIdentifier_of_generates {id : String} (h : Generates stream id) : IsIdentifier id := by
  obtain ⟨count, hcount⟩ := h
  obtain ⟨hlength, hid⟩ := ofUuids?_eq_some_iff.mp hcount
  rw [IsIdentifier, hid]
  exact ⟨List.length_take_of_le hlength, fun c hc => symbols_subset _ c (List.mem_of_mem_take hc)⟩

theorem mem_take_iff {chars : List Char} {c : Char} {count : Nat} :
    c ∈ chars.take count ↔ ∃ before after, chars = before ++ c :: after ∧ before.length < count := by
  constructor
  · intro h
    obtain ⟨before, between, htake⟩ := List.append_of_mem h
    refine ⟨before, between ++ chars.drop count, ?_, ?_⟩
    · rw [← List.cons_append, ← List.append_assoc, ← htake, List.take_append_drop]
    · have hlength := congrArg List.length htake
      rw [List.length_take, List.length_append, List.length_cons] at hlength
      omega
  · rintro ⟨before, after, rfl, hfew⟩
    have hroom : (before ++ [c]).length ≤ count := by
      rw [List.length_append, List.length_singleton]
      exact hfew
    rw [List.append_cons, List.take_append, List.take_of_length_le hroom]
    exact List.mem_append_left _ (List.mem_append_right _ List.mem_cons_self)

theorem early_version_of_generates (hrandom : ∀ round, IsRandomUuid (stream round)) {id : String} (h : Generates stream id) :
    ∃ c ∈ id.toList.take 7, c ∈ versionSymbols := by
  obtain ⟨count, hcount⟩ := h
  obtain ⟨hlength, hid⟩ := ofUuids?_eq_some_iff.mp hcount
  obtain ⟨before, c, after, hbefore, hc, -, hsymbols⟩ := symbols_of_isRandomUuid (hrandom 0)
  have hpositive : 1 ≤ count := by
    refine Nat.pos_of_ne_zero ?_
    rintro rfl
    exact absurd (show 10 ≤ 0 from hlength) (by decide)
  obtain ⟨rest, hrest⟩ : drawn stream 1 <+: drawn stream count := drawn_prefix hpositive
  have hfirst : drawn stream 1 = before ++ c :: after := by
    rw [drawn_succ, hsymbols]
    rfl
  have hdrawn : drawn stream count = before ++ c :: (after ++ rest) := by
    rw [← hrest, hfirst, List.append_assoc, List.cons_append]
  refine ⟨c, ?_, hc⟩
  rw [hid, List.take_take, Nat.min_eq_left (by decide)]
  exact mem_take_iff.mpr ⟨before, after ++ rest, hdrawn, Nat.lt_succ_of_le hbefore⟩

/-- Ten symbols of which one of the version comes after six others at the most are what one UUID stands for. In front of them stand as many bytes that are dropped as it takes to bring that symbol to the seventh byte. -/
theorem exists_uuid {before after : List Char} {c : Char} (hten : (before ++ c :: after).length = 10) (hfew : before.length < 7)
    (halphabet : ∀ d ∈ before ++ c :: after, d ∈ alphabet) (hc : c ∈ versionSymbols) :
    ∃ uuid, IsRandomUuid uuid ∧ symbols uuid = before ++ c :: after := by
  rw [List.length_append, List.length_cons] at hten
  obtain ⟨hbefore, hrest⟩ := List.forall_mem_append.mp halphabet
  obtain ⟨early, hearlySymbols, hearlyLength, -⟩ := exists_variants hbefore
  obtain ⟨version, hversion, hversionSymbol⟩ := exists_version hc
  obtain ⟨late, hlateSymbols, hlateLength, hlate⟩ := exists_variants (List.forall_mem_cons.mp hrest).2
  -- at least three symbols follow, so the ninth byte is one of theirs and has the variant
  have htwo : 2 ≤ late.length := by
    omega
  obtain ⟨between, variant, last, rfl⟩ : ∃ between variant last, late = between :: variant :: last := by
    match late, htwo with
    | between :: variant :: last, _ => exact ⟨between, variant, last, rfl⟩
  have hvariant := hlate variant (List.mem_cons_of_mem _ List.mem_cons_self)
  refine ⟨List.replicate (6 - early.length) 0xff ++ early ++ version :: between :: variant :: (last ++ List.replicate early.length 0xff),
    isRandomUuid_iff.mpr ⟨_, version, between, variant, _, ?_, ?_, hversion, hvariant, rfl⟩, ?_⟩
  · rw [List.length_append, List.length_replicate]
    omega
  · rw [List.length_cons, List.length_cons] at hlateLength
    rw [List.length_append, List.length_replicate]
    omega
  · have hversionKept : version.toNat < byteLimit := Nat.lt_of_le_of_lt hversion.2 (by decide)
    rw [← List.cons_append, ← List.cons_append, symbols_append, symbols_append, symbols_replicate, symbols_cons_of_lt hversionKept,
      symbols_append, symbols_replicate, hearlySymbols, hlateSymbols, hversionSymbol, List.nil_append, List.append_nil]

theorem exists_stream {id : String} (h : IsIdentifier id) (hearly : ∃ c ∈ id.toList.take 7, c ∈ versionSymbols) :
    ∃ stream : Nat → List UInt8, (∀ round, IsRandomUuid (stream round)) ∧ Generates stream id := by
  obtain ⟨c, hmem, hc⟩ := hearly
  obtain ⟨before, after, hid, hfew⟩ := mem_take_iff.mp hmem
  obtain ⟨uuid, huuid, hsymbols⟩ := exists_uuid (hid ▸ h.1) hfew (hid ▸ h.2) hc
  have hdrawn : drawn (fun _ => uuid) 1 = id.toList := by
    rw [drawn_succ, hsymbols, hid]
    rfl
  refine ⟨fun _ => uuid, fun _ => huuid, 1, ofUuids?_eq_some_iff.mpr ?_⟩
  rw [hdrawn]
  exact ⟨Nat.le_of_eq h.1.symm, (List.take_of_length_le (Nat.le_of_eq h.1)).symm⟩

/-- The loop ends with the identifier that as many UUIDs of the stream as it takes make. Random UUIDs always make one, five of them at the most, and no more than one. And it can be any text of ten symbols of the alphabet of which one of the first seven is a symbol of the version, but no other one. -/
theorem generated_iff_early_version (id : String) :
    (∀ stream : Nat → List UInt8, Fills stream 0 [] id.toList ↔ Generates stream id) ∧
      (∀ stream : Nat → List UInt8, (∀ round, IsRandomUuid (stream round)) →
        ∃ made, ofUuids? ((List.range 5).map stream) = some made ∧ (Generates stream id ↔ id = made)) ∧
      ((∃ stream : Nat → List UInt8, (∀ round, IsRandomUuid (stream round)) ∧ Generates stream id) ↔
        IsIdentifier id ∧ ∃ c ∈ id.toList.take 7, c ∈ versionSymbols) := by
  refine ⟨fun stream => fills_iff_generates, fun stream hrandom => generates_iff_of_random hrandom id, ?_, ?_⟩
  · rintro ⟨stream, hrandom, hgenerates⟩
    exact ⟨isIdentifier_of_generates hgenerates, early_version_of_generates hrandom hgenerates⟩
  · rintro ⟨hid, hearly⟩
    exact exists_stream hid hearly

theorem last_chance_generated :
    IsIdentifier "0000002000" ∧
      ∃ stream : Nat → List UInt8, (∀ round, IsRandomUuid (stream round)) ∧ Generates stream "0000002000" := by
  have hid : IsIdentifier "0000002000" := isIdentifier_of_all rfl (by decide)
  obtain ⟨-, -, hgenerated⟩ := generated_iff_early_version "0000002000"
  exact ⟨hid, hgenerated.mpr ⟨hid, '2', by decide, by decide⟩⟩

/-- Ten zeros are a text of ten symbols of the alphabet, and no stream of random UUIDs makes it. -/
theorem zeros_never_generated :
    IsIdentifier "0000000000" ∧
      ¬∃ stream : Nat → List UInt8, (∀ round, IsRandomUuid (stream round)) ∧ Generates stream "0000000000" := by
  refine ⟨isIdentifier_of_all rfl (by decide), ?_⟩
  rintro ⟨stream, hrandom, hgenerates⟩
  obtain ⟨c, hmem, hc⟩ := early_version_of_generates hrandom hgenerates
  have hzero : c = '0' := List.eq_of_mem_replicate (show c ∈ List.replicate 7 '0' from hmem)
  rw [hzero] at hc
  exact absurd hc (by decide)

end Identifier

end ObjectStore
