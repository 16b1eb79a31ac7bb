import ObjectStore.Proofs.Number.Rational

/-!
# The groups within which values are ordered

Two values have an order when they belong to one group: the numbers of all kinds, or the values of one other kind that is neither an array nor an object. Each group is ordered as the places of its values are in a linear order. The one exception are numbers of two kinds of which one is infinite: they are compared as doubles, and so an infinity equals every finite number whose double is that infinity.
-/

namespace ObjectStore

/-! ### Places in time -/

def Date.place (d : Date) : ℤ ×ₗ ℕ ×ₗ ℕ := toLex (d.year, toLex (d.month, d.day))

def TimeOfDay.place (t : TimeOfDay) : ℕ ×ₗ ℕ := toLex (t.secondOfDay, t.nanos)

def Instant.place (t : Instant) : ℤ ×ₗ ℕ := toLex (t.seconds, t.nanos)

theorem Date.compare_eq_cmp (a b : Date) : a.compare b = cmp a.place b.place := by
  rw [cmp_eq_compare]
  rfl

theorem TimeOfDay.compare_eq_cmp (a b : TimeOfDay) : a.compare b = cmp a.place b.place := by
  rw [cmp_eq_compare]
  rfl

theorem Instant.compare_eq_cmp (a b : Instant) : a.compare b = cmp a.place b.place := by
  rw [cmp_eq_compare]
  rfl

/-! ### Bytes -/

theorem compares_cons {x y : ℕ} {xs ys : List ℕ} {first rest : Ordering} (hfirst : first.Compares x y)
    (hrest : rest.Compares xs ys) : (first.then rest).Compares (x :: xs) (y :: ys) := by
  cases first with
  | lt => exact List.Lex.rel hfirst
  | gt => exact List.Lex.rel hfirst
  | eq =>
    obtain rfl : x = y := hfirst
    cases rest with
    | lt => exact List.Lex.cons hrest
    | gt => exact List.Lex.cons hrest
    | eq => exact congrArg _ hrest

theorem compares_bytes (bytes others : List UInt8) :
    (Ord.compare bytes others).Compares (bytes.map UInt8.toNat) (others.map UInt8.toNat) := by
  induction bytes generalizing others with
  | nil =>
    cases others with
    | nil => exact rfl
    | cons other others => exact List.nil_lt_cons _ _
  | cons byte bytes ih =>
    cases others with
    | nil => exact List.nil_lt_cons _ _
    | cons other others =>
      have hfirst : Ord.compare byte other = cmp byte.toNat other.toNat := by
        rw [cmp_eq_compare]
        simp only [compare, compareOfLessAndEq, UInt8.lt_iff_toNat_lt, UInt8.toNat_inj]
      rw [List.compare_cons_cons, hfirst]
      exact compares_cons (cmp_compares _ _) (ih others)

namespace Double

theorem compare?_swap (x y : Double) : y.compare? x = (x.compare? y).map Ordering.swap := by
  rw [compare?, compare?, Bool.or_comm]
  split
  · rfl
  · rw [Option.map_some, Int.compare_swap]

end Double

namespace Value

/-! ### The order the other way round -/

theorem compareNumbers?_swap (a b : Value) : b.compareNumbers? a = (a.compareNumbers? b).map Ordering.swap := by
  rw [compareNumbers?, compareNumbers?]
  cases a.toDecimal? <;> cases b.toDecimal?
  case some.some d e =>
    have hexact : e.compare d = (d.compare e).swap := by
      rw [Decimal.compare_eq_cmp, Decimal.compare_eq_cmp, cmp_swap]
    exact congrArg some hexact
  -- One of the two is not finite, so the doubles decide.
  all_goals
    cases a.toDouble? with
    | none => cases b.toDouble? <;> rfl
    | some x =>
      cases b.toDouble? with
      | none => rfl
      | some y => exact x.compare?_swap y

theorem compare?_swap (a b : Value) : b.compare? a = (a.compare? b).map Ordering.swap := by
  have hmixed := compareNumbers?_swap a b
  cases a with
  | null => cases b <;> rfl
  | boolean flag =>
    cases b with
    | boolean other => exact congrArg some Std.OrientedOrd.eq_swap
    | _ => rfl
  | string text =>
    cases b with
    | string other => exact congrArg some Std.OrientedOrd.eq_swap
    | _ => rfl
  | integer n =>
    cases b with
    | integer other => exact congrArg some Std.OrientedOrd.eq_swap
    | number y | decimal e => exact hmixed
    | _ => rfl
  | number x =>
    cases b with
    | number y => exact x.compare?_swap y
    | integer other | decimal e => exact hmixed
    | _ => rfl
  | decimal d =>
    cases b with
    | integer other | number y | decimal e => exact hmixed
    | _ => rfl
  | timestamp t =>
    cases b with
    | timestamp u => rw [compare?, compare?, Instant.compare_eq_cmp, Instant.compare_eq_cmp, Option.map_some, cmp_swap]
    | _ => rfl
  | date d =>
    cases b with
    | date e => rw [compare?, compare?, Date.compare_eq_cmp, Date.compare_eq_cmp, Option.map_some, cmp_swap]
    | _ => rfl
  | time t =>
    cases b with
    | time u => rw [compare?, compare?, TimeOfDay.compare_eq_cmp, TimeOfDay.compare_eq_cmp, Option.map_some, cmp_swap]
    | _ => rfl
  | binary bytes =>
    cases b with
    | binary others => exact congrArg some Std.OrientedOrd.eq_swap
    | _ => rfl
  | array items => cases b <;> rfl
  | object fields => cases b <;> rfl

/-! ### Groups -/

/-- What is ordered within itself: all numbers, or the values of one other kind. -/
inductive Group where
  | numeric | boolean | string | timestamp | date | time | binary
deriving DecidableEq

/-- A rational number between the two infinities. -/
def between (q : ℚ) : WithBot (WithTop ℚ) := ((q : WithTop ℚ) : WithBot (WithTop ℚ))

def farthest (negative : Bool) : WithBot (WithTop ℚ) := if negative then ⊥ else ⊤

/-- The numbers and the two infinities around them; a NaN is not among them. -/
def extended? : Value → Option (WithBot (WithTop ℚ))
  | number x => if x.isNaN then none else if x.isFinite then some (between x.toRat) else some (farthest x.negative)
  | value => value.rational?.map between

namespace Group

/-- Where the values of a group have their places. -/
def Place : Group → Type
  | numeric => WithBot (WithTop ℚ)
  | boolean => Bool
  | string => String
  | timestamp => ℤ ×ₗ ℕ
  | date => ℤ ×ₗ ℕ ×ₗ ℕ
  | time => ℕ ×ₗ ℕ
  | binary => List ℕ

noncomputable instance : (group : Group) → LinearOrder group.Place
  | numeric => inferInstanceAs (LinearOrder (WithBot (WithTop ℚ)))
  | boolean => inferInstanceAs (LinearOrder Bool)
  | string => inferInstanceAs (LinearOrder String)
  | timestamp => inferInstanceAs (LinearOrder (ℤ ×ₗ ℕ))
  | date => inferInstanceAs (LinearOrder (ℤ ×ₗ ℕ ×ₗ ℕ))
  | time => inferInstanceAs (LinearOrder (ℕ ×ₗ ℕ))
  | binary => inferInstanceAs (LinearOrder (List ℕ))

/-- The place of a value in a group, if it belongs to it. -/
def place? : (group : Group) → Value → Option group.Place
  | numeric, value => value.extended?
  | boolean, .boolean flag => some flag
  | string, .string text => some text
  | timestamp, .timestamp t => some t.place
  | date, .date d => some d.place
  | time, .time t => some t.place
  | binary, .binary bytes => some (bytes.map UInt8.toNat)
  | _, _ => none

end Group

/-- Values of one group other than numbers are ordered as their places are. -/
theorem compare?_of_place? {group : Group} {a b : Value} {p q : group.Place} (hgroup : group ≠ .numeric)
    (ha : group.place? a = some p) (hb : group.place? b = some q) : a.compare? b = some (cmp p q) := by
  cases group with
  | numeric => exact absurd rfl hgroup
  | boolean =>
    cases a <;> cases ha
    cases b <;> cases hb
    exact congrArg some (cmp_eq_compare _ _).symm
  | string =>
    cases a <;> cases ha
    cases b <;> cases hb
    exact congrArg some (cmp_eq_compare _ _).symm
  | timestamp =>
    cases a <;> cases ha
    cases b <;> cases hb
    exact congrArg some (Instant.compare_eq_cmp _ _)
  | date =>
    cases a <;> cases ha
    cases b <;> cases hb
    exact congrArg some (Date.compare_eq_cmp _ _)
  | time =>
    cases a <;> cases ha
    cases b <;> cases hb
    exact congrArg some (TimeOfDay.compare_eq_cmp _ _)
  | binary =>
    cases a <;> cases ha
    cases b <;> cases hb
    exact congrArg some (compares_bytes _ _).cmp_eq.symm

/-! ### Infinities among numbers -/

def isInfinite : Value → Bool
  | number x => !x.isFinite && !x.isNaN
  | _ => false

/-- Whether a finite number has no finite double. -/
def overflows (value : Value) : Bool := value.rational?.isSome && !value.toDouble?.any Double.isFinite

theorem cmp_between (p q : ℚ) : cmp (between p) (between q) = cmp p q :=
  (WithBot.coe_strictMono.comp WithTop.coe_strictMono).cmp_map_eq p q

theorem cmp_farthest_between (negative : Bool) (q : ℚ) :
    cmp (farthest negative) (between q) = if negative then .lt else .gt := by
  cases negative with
  | true => exact (WithBot.bot_lt_coe _).cmp_eq_lt
  | false => exact (WithBot.coe_lt_coe.mpr (WithTop.coe_lt_top q)).cmp_eq_gt

theorem cmp_farthest (negative other : Bool) : cmp (farthest negative) (farthest other) = Ord.compare other negative := by
  cases negative <;> cases other
  · exact cmp_self_eq_eq _
  · exact bot_lt_top.cmp_eq_gt
  · exact bot_lt_top.cmp_eq_lt
  · exact cmp_self_eq_eq _

/-- A number among the extended ones is finite or one of the two infinities. -/
theorem finite_or_infinite {value : Value} {p : WithBot (WithTop ℚ)} (h : value.extended? = some p) :
    (∃ q, value.rational? = some q ∧ p = between q) ∨
      ∃ negative, value = number (Double.infinity negative) ∧ p = farthest negative := by
  have hfinite {q : ℚ} (hvalue : value.rational? = some q) (hplace : value.rational?.map between = some p) :
      ∃ q, value.rational? = some q ∧ p = between q := by
    rw [hvalue, Option.map_some] at hplace
    exact ⟨q, hvalue, (Option.some.inj hplace).symm⟩
  cases value with
  | number x =>
    rw [extended?] at h
    cases hnan : x.isNaN with
    | true =>
      rw [if_pos hnan] at h
      cases h
    | false =>
      rw [hnan, if_neg Bool.false_ne_true] at h
      cases hfinite : x.isFinite with
      | true =>
        rw [if_pos hfinite] at h
        exact .inl ⟨x.toRat, if_pos hfinite, (Option.some.inj h).symm⟩
      | false =>
        rw [hfinite, if_neg Bool.false_ne_true] at h
        exact .inr ⟨x.negative, congrArg number (Double.eq_infinity hfinite hnan), (Option.some.inj h).symm⟩
  | integer n => exact .inl (hfinite rfl h)
  | decimal d => exact .inl (hfinite rfl h)
  | _ => cases h

end Value

namespace Double

theorem view_of_isNaN {x : Double} (h : x.isNaN = true) : x.view = .nan := by
  have hmore : infinityBits < x.magnitude := of_decide_eq_true h
  have hless : x.magnitude < twoTo 63 := Nat.mod_lt _ (by decide)
  have hinfinity : infinityBits = 2047 * 2 ^ 52 := rfl
  have hsign : twoTo 63 = 2 ^ 63 := rfl
  have hwidth : twoTo 52 = 2 ^ 52 := rfl
  have hfield : x.magnitude / twoTo 52 = 2047 := by
    rw [hwidth]
    omega
  have hfraction : x.magnitude % twoTo 52 ≠ 0 := by
    rw [hwidth]
    omega
  rw [view, if_pos hfield, if_neg hfraction]

theorem compare?_of_isNaN {x : Double} (h : x.isNaN = true) (y : Double) : x.compare? y = none := by
  rw [compare?, h, Bool.true_or, if_pos rfl]

theorem rank_infinity (negative : Bool) : (infinity negative).rank = if negative then -(infinityBits : Int) else infinityBits := by
  cases negative <;> rfl

theorem isNaN_infinity (negative : Bool) : (infinity negative).isNaN = false := by
  cases negative <;> rfl

theorem compare?_infinities (negative other : Bool) : (infinity negative).compare? (infinity other) = some (Ord.compare other negative) := by
  cases negative <;> cases other <;> rfl

theorem compare?_infinity {x : Double} (hfinite : x.isFinite = true) (negative : Bool) :
    (infinity negative).compare? x = some (if negative then .lt else .gt) := by
  have hless : x.magnitude < infinityBits := of_decide_eq_true hfinite
  rw [compare?, isNaN_infinity, isNaN_of_isFinite hfinite, Bool.or_self, if_neg Bool.false_ne_true, rank_infinity, rank]
  cases negative with
  | true =>
    rw [if_pos rfl, if_pos rfl, Int.compare_eq_lt.mpr]
    split <;> omega
  | false =>
    rw [if_neg Bool.false_ne_true, if_neg Bool.false_ne_true, Int.compare_eq_gt.mpr]
    split <;> omega

end Double

namespace Value

/-- An infinity is beyond every finite number that has a finite double. -/
theorem compare?_infinity {value : Value} {q : ℚ} (hvalue : value.rational? = some q) (hclear : value.overflows = false)
    (negative : Bool) : (number (Double.infinity negative)).compare? value = some (if negative then .lt else .gt) := by
  obtain ⟨x, hx, hfinite⟩ : ∃ x, value.toDouble? = some x ∧ x.isFinite = true := by
    rw [overflows, hvalue, Option.isSome_some, Bool.true_and, Bool.not_eq_false', Option.any_eq_true] at hclear
    exact hclear
  have hbeyond := Double.compare?_infinity hfinite negative
  have hmixed : (number (Double.infinity negative)).compareNumbers? value = some (if negative then .lt else .gt) := by
    have hnone : (number (Double.infinity negative)).toDecimal? = none := by
      cases negative <;> rfl
    rw [compareNumbers?, hnone, hx]
    exact hbeyond
  cases value with
  | number y =>
    obtain rfl : y = x := Option.some.inj hx
    exact hbeyond
  | integer n | decimal d => exact hmixed
  | _ => cases hvalue

/-- Whether an infinity can be told apart from the finite numbers beside it: there is none, or each of them has a finite double. -/
def Clear (values : List Value) : Prop :=
  (∀ value ∈ values, value.isInfinite = false) ∨ ∀ value ∈ values, value.overflows = false

theorem isInfinite_infinity (negative : Bool) : (number (Double.infinity negative)).isInfinite = true := by
  cases negative <;> rfl

theorem Clear.overflows_of_infinity {values : List Value} (h : Clear values) {negative : Bool}
    (hinfinity : number (Double.infinity negative) ∈ values) {value : Value} (hvalue : value ∈ values) :
    value.overflows = false := by
  rcases h with hfinite | hclear
  · exact absurd (isInfinite_infinity negative) (by rw [hfinite _ hinfinity]; exact Bool.false_ne_true)
  · exact hclear value hvalue

/-- Values of one group are ordered as their places are. -/
theorem Clear.compare? {values : List Value} (h : Clear values) {group : Group} {a b : Value} {p q : group.Place}
    (ha : a ∈ values) (hb : b ∈ values) (hplace : group.place? a = some p) (hother : group.place? b = some q) :
    a.compare? b = some (cmp p q) := by
  cases group with
  | numeric =>
    rcases finite_or_infinite hplace with ⟨r, hr, rfl⟩ | ⟨negative, rfl, rfl⟩
    · rcases finite_or_infinite hother with ⟨r', hr', rfl⟩ | ⟨negative, rfl, rfl⟩
      · exact (compare?_of_rational? hr hr').trans (congrArg some (cmp_between r r').symm)
      · have hbeyond := compare?_infinity hr (h.overflows_of_infinity hb ha) negative
        have hplaces := cmp_farthest_between negative r
        rw [compare?_swap, hbeyond, ← hplaces, Option.map_some, cmp_swap]
        rfl
    · rcases finite_or_infinite hother with ⟨r', hr', rfl⟩ | ⟨negative', rfl, rfl⟩
      · have hbeyond := compare?_infinity hr' (h.overflows_of_infinity ha hb) negative
        exact hbeyond.trans (congrArg some (cmp_farthest_between negative r').symm)
      · exact (Double.compare?_infinities negative negative').trans (congrArg some (cmp_farthest negative negative').symm)
  | _ => exact compare?_of_place? Group.noConfusion hplace hother

theorem compare?_of_isNaN {x : Double} (h : x.isNaN = true) (other : Value) : (number x).compare? other = none := by
  have hmixed : (number x).compareNumbers? other = none := by
    have hnone : (number x).toDecimal? = none := by
      rw [toDecimal?, Decimal.ofDouble?, Double.view_of_isNaN h]
    rw [compareNumbers?, hnone]
    simp only [toDouble?]
    split
    · next hx _ =>
      cases hx
      exact Double.compare?_of_isNaN h _
    · rfl
  cases other with
  | number y => exact Double.compare?_of_isNaN h y
  | integer n | decimal d => exact hmixed
  | _ => rfl

theorem isSome_extended? {value other : Value} {order : Ordering} (h : value.compare? other = some order)
    (hnumeric : value.isNumeric = true) : value.extended?.isSome = true := by
  cases value with
  | integer n | decimal d => rfl
  | number x =>
    cases hnan : x.isNaN with
    | true =>
      rw [compare?_of_isNaN hnan] at h
      cases h
    | false =>
      rw [extended?, hnan, if_neg Bool.false_ne_true]
      split <;> rfl
  | _ => cases hnumeric

theorem exists_group_of_compare? {a b : Value} {order : Ordering} (h : a.compare? b = some order) (hnull : a.isNull = false) :
    ∃ group : Group, (group.place? a).isSome = true ∧ (group.place? b).isSome = true := by
  have hother : b.compare? a = some order.swap := by
    rw [compare?_swap, h, Option.map_some]
  have hnumeric (ha : a.isNumeric = true) (hb : b.isNumeric = true) :
      ∃ group : Group, (group.place? a).isSome = true ∧ (group.place? b).isSome = true :=
    ⟨.numeric, isSome_extended? h ha, isSome_extended? hother hb⟩
  cases a with
  | null => cases hnull
  | boolean flag =>
    cases b with
    | boolean other => exact ⟨.boolean, rfl, rfl⟩
    | _ => cases h
  | string text =>
    cases b with
    | string other => exact ⟨.string, rfl, rfl⟩
    | _ => cases h
  | integer n | number x | decimal d =>
    cases b with
    | integer n | number x | decimal d => exact hnumeric rfl rfl
    | _ => cases h
  | timestamp t =>
    cases b with
    | timestamp u => exact ⟨.timestamp, rfl, rfl⟩
    | _ => cases h
  | date d =>
    cases b with
    | date e => exact ⟨.date, rfl, rfl⟩
    | _ => cases h
  | time t =>
    cases b with
    | time u => exact ⟨.time, rfl, rfl⟩
    | _ => cases h
  | binary bytes =>
    cases b with
    | binary others => exact ⟨.binary, rfl, rfl⟩
    | _ => cases h
  | array items => cases b <;> cases h
  | object fields => cases b <;> cases h

/-- A value belongs to one group only. -/
theorem group_unique {value : Value} {group other : Group} (h : (group.place? value).isSome = true)
    (hother : (other.place? value).isSome = true) : group = other := by
  cases value <;> cases group <;> try cases h
  all_goals cases other <;> first | rfl | cases hother

/-! ### Values of one kind -/

/-- Whether one value comes before another one of its group: numbers by size, texts and bytes in lexical order, dates and times in the course of time, and false before true. -/
def Below (a b : Value) : Prop :=
  ∃ (group : Group) (p q : group.Place), group.place? a = some p ∧ group.place? b = some q ∧ p < q

theorem Clear.compare?_eq_lt_iff {values : List Value} (h : Clear values) {a b : Value} (ha : a ∈ values) (hb : b ∈ values)
    (hnull : a.isNull = false) : a.compare? b = some .lt ↔ Below a b := by
  constructor
  · intro hless
    obtain ⟨group, hga, hgb⟩ := exists_group_of_compare? hless hnull
    obtain ⟨p, hp⟩ := Option.isSome_iff_exists.mp hga
    obtain ⟨q, hq⟩ := Option.isSome_iff_exists.mp hgb
    rw [h.compare? ha hb hp hq] at hless
    exact ⟨group, p, q, hp, hq, (cmp_eq_lt_iff p q).mp (Option.some.inj hless)⟩
  · rintro ⟨group, p, q, hp, hq, hless⟩
    rw [h.compare? ha hb hp hq, hless.cmp_eq_lt]

def scalarKinds : List Kind := [.boolean, .string, .timestamp, .date, .time, .binary]

/-- Whether values are all finite numbers, or all of one kind that is neither a number nor nested. -/
def Uniform (values : List Value) : Prop :=
  (∀ value ∈ values, value.rational?.isSome = true) ∨ ∃ kind ∈ scalarKinds, ∀ value ∈ values, value.kind = kind

theorem exists_group_of_kind {kind : Kind} (hkind : kind ∈ scalarKinds) :
    ∃ group : Group, ∀ value : Value, value.kind = kind → (group.place? value).isSome = true := by
  simp only [scalarKinds, List.mem_cons, List.not_mem_nil, or_false] at hkind
  rcases hkind with rfl | rfl | rfl | rfl | rfl | rfl
  · exact ⟨.boolean, fun value h => by cases value <;> first | rfl | cases h⟩
  · exact ⟨.string, fun value h => by cases value <;> first | rfl | cases h⟩
  · exact ⟨.timestamp, fun value h => by cases value <;> first | rfl | cases h⟩
  · exact ⟨.date, fun value h => by cases value <;> first | rfl | cases h⟩
  · exact ⟨.time, fun value h => by cases value <;> first | rfl | cases h⟩
  · exact ⟨.binary, fun value h => by cases value <;> first | rfl | cases h⟩

theorem isInfinite_of_finite {value : Value} (h : value.rational?.isSome = true) : value.isInfinite = false := by
  cases value with
  | number x =>
    rw [rational?] at h
    cases hfinite : x.isFinite with
    | true => simp [isInfinite, hfinite]
    | false => simp [hfinite] at h
  | _ => rfl

theorem isInfinite_of_kind {value : Value} {kind : Kind} (hkind : kind ∈ scalarKinds) (h : value.kind = kind) :
    value.isInfinite = false := by
  cases value with
  | number x =>
    rw [← h] at hkind
    exact absurd hkind (show Kind.number ∉ scalarKinds by decide)
  | _ => rfl

theorem Uniform.clear {values : List Value} (h : Uniform values) : Clear values := by
  rcases h with hfinite | ⟨kind, hkind, hvalues⟩
  · exact .inl fun value hvalue => isInfinite_of_finite (hfinite value hvalue)
  · exact .inl fun value hvalue => isInfinite_of_kind hkind (hvalues value hvalue)

theorem Uniform.comparable {values : List Value} (h : Uniform values) {a b : Value} (ha : a ∈ values) (hb : b ∈ values) :
    (a.compare? b).isSome = true := by
  rcases h with hfinite | ⟨kind, hkind, hvalues⟩
  · obtain ⟨p, hp⟩ := Option.isSome_iff_exists.mp (hfinite a ha)
    obtain ⟨q, hq⟩ := Option.isSome_iff_exists.mp (hfinite b hb)
    rw [compare?_of_rational? hp hq, Option.isSome_some]
  · obtain ⟨group, hgroup⟩ := exists_group_of_kind hkind
    obtain ⟨p, hp⟩ := Option.isSome_iff_exists.mp (hgroup a (hvalues a ha))
    obtain ⟨q, hq⟩ := Option.isSome_iff_exists.mp (hgroup b (hvalues b hb))
    have hclear : Clear values := Uniform.clear (.inr ⟨kind, hkind, hvalues⟩)
    rw [hclear.compare? ha hb hp hq, Option.isSome_some]

end Value

end ObjectStore
