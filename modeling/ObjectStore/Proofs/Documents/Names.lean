import ObjectStore.Documents.Filter
import ObjectStore.Documents.Options
import ObjectStore.Proofs.Documents.Changes
import ObjectStore.Proofs.Text.Percent
import ObjectStore.Proofs.Value.Scalars

/-!
# Names in the documents that are sent

A document database reads a name as an operator or as a path by the characters that are in it, wherever the name stands. So every name of a filter, of an update, of an order and of a projection is either an operator of this library that stands where operators do, or a name from outside that was escaped, at whatever depth of a literal it was found. An update also writes the reserved names of the record.
-/

namespace ObjectStore

/-! ### Names that come from outside -/

namespace Value

theorem Within.trans {a b c : Value} (hab : Within a b) (hbc : Within b c) : Within a c := by
  induction hbc with
  | self => exact hab
  | item hitem _ ih => exact .item hitem ih
  | field hentry _ ih => exact .field hentry ih

/-- A name is the key of an object inside the value. -/
def Names (value : Value) (name : String) : Prop :=
  ∃ fields : Fields, Within (.object fields) value ∧ name ∈ OrderedMap.keys fields

theorem Names.of_within {inner value : Value} {name : String} (hwithin : Within inner value) (h : Names inner name) :
    Names value name := by
  obtain ⟨fields, hfields, hname⟩ := h
  exact ⟨fields, hfields.trans hwithin, hname⟩

theorem names_of_mem {fields : Fields} {entry : String × Value} (hentry : entry ∈ fields) : Names (.object fields) entry.1 :=
  ⟨fields, .self _, List.mem_map_of_mem hentry⟩

end Value

def Operand.literals : Operand → List Value
  | key _ => []
  | literal value => [value]

namespace Predicate

mutual

/-- All literals of a predicate. -/
def literals : Predicate → List Value
  | not inner => literals inner
  | compare _ lhs rhs => lhs.literals ++ rhs.literals
  | elementOf element collection => element.literals ++ collection.literals
  | notElementOf element collection => element.literals ++ collection.literals
  | between value low high => value.literals ++ low.literals ++ high.literals
  | notBetween value low high => value.literals ++ low.literals ++ high.literals
  | pattern _ _ _ => []
  | all list => literalsOfList list
  | any list => literalsOfList list
termination_by structural predicate => predicate

def literalsOfList : List Predicate → List Value
  | [] => []
  | first :: rest => literals first ++ literalsOfList rest
termination_by structural list => list

end

end Predicate

/-- All values that some updates mention. -/
def Updates.literals (updates : Updates) : List Value := updates.flatMap fun entry => entry.2.values

namespace Documents

/-! ### Where a name stands -/

/-- What the names of a document are read as. -/
inductive Position where
  /-- Fields to filter by, or operators that join filters. -/
  | filter
  /-- Operators that test one field. -/
  | condition
  /-- Operators that change fields. -/
  | changes
  /-- Fields that are changed, ordered by or returned. -/
  | fields
  /-- Data, in which no name has a meaning. -/
  | data
deriving DecidableEq

namespace Position

/-- The operators that this library writes at a position. -/
def operators : Position → List String
  | filter => ["$expr", "$nor", "$and", "$or"]
  | condition => ["$eq", "$ne", "$lt", "$gt", "$lte", "$gte", "$in", "$nin", "$elemMatch", "$not", "$regex"]
  | changes => ["$set", "$unset", "$inc", "$mul", "$max", "$min", "$push", "$pullAll", "$pop", "$setOnInsert"]
  | fields | data => []

/-- What the names under a name are read as. -/
def below : Position → String → Position
  | filter, name => if name ∈ operators filter then filter else condition
  | condition, name => if name ∈ ["$elemMatch", "$not"] then condition else data
  | changes, _ => fields
  | fields, _ | data, _ => data

end Position

end Documents

namespace Bson

/-- The fields of a datum that has names. -/
def fields : Bson → Document
  | document fields | codeWithScope _ fields => fields
  | _ => []

def items : Bson → List Bson
  | array items => items
  | _ => []

end Bson

namespace Documents

/-- A name stands in a datum, at any depth, where it is read as the position tells. The datum itself stands at the first position. -/
inductive Stands : Position → Bson → Position → String → Prop where
  | here {place : Position} {bson : Bson} {entry : String × Bson} (hentry : entry ∈ bson.fields) :
      Stands place bson place entry.1
  | field {place other : Position} {bson : Bson} {name : String} {entry : String × Bson} (hentry : entry ∈ bson.fields)
      (hinner : Stands (place.below entry.1) entry.2 other name) : Stands place bson other name
  | item {place other : Position} {bson item : Bson} {name : String} (hitem : item ∈ bson.items)
      (hinner : Stands place item other name) : Stands place bson other name

theorem Stands.name {place : Position} {fields : Document} {key : String} {bson : Bson} (hentry : (key, bson) ∈ fields) :
    Stands place (.document fields) place key :=
  @Stands.here place (.document fields) (key, bson) hentry

theorem Stands.under {place other : Position} {fields : Document} {key name : String} {bson : Bson}
    (hentry : (key, bson) ∈ fields) (hinner : Stands (place.below key) bson other name) :
    Stands place (.document fields) other name :=
  @Stands.field place other (.document fields) name (key, bson) hentry hinner

theorem Stands.data {bson : Bson} {other : Position} {name : String} (h : Stands .data bson other name) : other = .data := by
  generalize hplace : Position.data = place at h
  induction h with
  | here => rfl
  | field _ _ ih =>
    subst hplace
    exact ih rfl
  | item _ _ ih => exact ih hplace

/-- No character of a name makes it an operator or a path. -/
def Plain (name : String) : Prop := ∀ c ∈ ['.', '$', '\x00'], c ∉ name.toList

/-- Where a name at a position can be from: the operators of that position, the names of fields that the library writes itself, the names that a caller gives, and for data the literals that hold it and the tags of the codec. -/
inductive Written (own names : List String) (values : List Value) : Position → String → Prop where
  | operator {place : Position} {name : String} (h : name ∈ place.operators) : Written own names values place name
  | own {name : String} (h : name ∈ own) : Written own names values .fields name
  | filtered {key : String} (h : key ∈ names) : Written own names values .filter (Percent.escape key)
  | listed {key : String} (h : key ∈ names) : Written own names values .fields (Percent.escape key)
  | literal {value : Value} {key : String} (hvalue : value ∈ values) (h : value.Names key) :
      Written own names values .data (Percent.escape key)
  | tag {tag : ExtendedJson.Tag} (h : tag ∈ Bson.tags) : Written own names values .data (Percent.escape tag.name)

/-- Every name of a datum at a position, at any depth, is from where such names can be from. -/
def Sourced (own names : List String) (values : List Value) (place : Position) (bson : Bson) : Prop :=
  ∀ other name, Stands place bson other name → Written own names values other name

theorem plain_escape (name : String) : Plain (Percent.escape name) := fun _ hc => Percent.not_mem_escape hc name

theorem plain_of_mem_reserved {name : String} (h : name ∈ FieldName.reserved) : Plain name := by
  rw [← Changes.escape_of_mem_reserved h]
  exact plain_escape name

section Sourced

variable {own names : List String} {values : List Value} {place : Position} {name : String}

/-- A name that is no operator has no character of operators or paths. -/
theorem Written.operator_or_plain (hown : own ⊆ FieldName.reserved) (h : Written own names values place name) :
    name ∈ place.operators ∨ Plain name := by
  cases h with
  | operator h => exact Or.inl h
  | own h => exact Or.inr (plain_of_mem_reserved (hown h))
  | filtered | listed | literal | tag => exact Or.inr (plain_escape _)

/-- Names that begin with a dollar sign are operators, so an escaped name is none. -/
theorem escape_not_mem_operators (place : Position) (key : String) : Percent.escape key ∉ place.operators := by
  have hdollar : ∀ operator ∈ place.operators, '$' ∈ operator.toList := by
    cases place <;> decide
  exact fun h => plain_escape key '$' (by decide) (hdollar _ h)

theorem sourced_scalar {bson : Bson} (hfields : bson.fields = []) (hitems : bson.items = []) :
    Sourced own names values place bson := by
  intro other name h
  cases h with
  | here hentry => simp [hfields] at hentry
  | field hentry => simp [hfields] at hentry
  | item hitem => simp [hitems] at hitem

theorem sourced_document {fields : Document}
    (h : ∀ entry ∈ fields, Written own names values place entry.1 ∧ Sourced own names values (place.below entry.1) entry.2) :
    Sourced own names values place (.document fields) := by
  intro other name hstands
  cases hstands with
  | here hentry => exact (h _ hentry).1
  | field hentry hinner => exact (h _ hentry).2 _ _ hinner
  | item hitem => cases hitem

theorem sourced_array {items : List Bson} (h : ∀ item ∈ items, Sourced own names values place item) :
    Sourced own names values place (.array items) := by
  intro other name hstands
  cases hstands with
  | here hentry => cases hentry
  | field hentry => cases hentry
  | item hitem hinner => exact h _ hitem _ _ hinner

theorem sourced_single {bson : Bson} (hname : Written own names values place name)
    (h : Sourced own names values (place.below name) bson) : Sourced own names values place (.document [(name, bson)]) := by
  apply sourced_document
  intro entry hentry
  obtain rfl := List.mem_singleton.mp hentry
  exact ⟨hname, h⟩

/-! ### Literals -/

theorem sourced_tagged {tag : ExtendedJson.Tag} (htag : tag ∈ Bson.tags) {payload : Bson}
    (h : Sourced own names values .data payload) : Sourced own names values .data (Bson.tagged tag payload) :=
  sourced_single (.tag htag) h

/-- In the form of a value all names are the value's own or tags. -/
theorem sourced_ofValue {value : Value} (hnames : ∀ key, value.Names key → Written own names values .data (Percent.escape key))
    {bson : Bson} (h : Bson.ofValue value = .ok bson) : Sourced own names values .data bson := by
  induction value using Value.nestedInduction generalizing bson with
  | scalar value hscalar =>
    cases value with
    | array items => cases hscalar
    | object fields => cases hscalar
    | decimal d =>
      rw [Bson.ofValue_decimal, Bson.ofDecimal] at h
      split at h
      · cases h
        exact sourced_scalar rfl rfl
      · cases h
    | date d =>
      cases h
      exact sourced_tagged (by decide) (sourced_scalar rfl rfl)
    | time t =>
      cases h
      exact sourced_tagged (by decide) (sourced_scalar rfl rfl)
    | _ =>
      cases h
      exact sourced_scalar rfl rfl
  | array items ih =>
    rw [Bson.ofValue_array, Bson.ofValues_eq_mapM] at h
    obtain ⟨forms, hforms, rfl⟩ := Outcome.map_eq_ok_iff.mp h
    apply sourced_array
    intro form hform
    obtain ⟨item, hitem, hsame⟩ := Outcome.exists_item_of_mapM_eq_ok hforms hform
    exact ih item hitem (fun key hkey => hnames key (hkey.of_within (.item hitem (.self item)))) hsame
  | object fields ih =>
    rw [Bson.ofValue_object] at h
    obtain ⟨document, hdocument, rfl⟩ := Outcome.map_eq_ok_iff.mp h
    have hsourced : Sourced own names values .data (.document document) := by
      rw [Bson.ofFields_eq_mapM] at hdocument
      apply sourced_document
      intro field hfield
      obtain ⟨entry, hentry, hsame⟩ := Outcome.exists_item_of_mapM_eq_ok hdocument hfield
      obtain ⟨form, hform, rfl⟩ := Outcome.map_eq_ok_iff.mp hsame
      refine ⟨hnames _ (Value.names_of_mem hentry), ih entry hentry (fun key hkey => ?_) hform⟩
      exact hnames key (hkey.of_within (.field hentry (.self entry.2)))
    rw [Bson.ofDocument]
    split
    · exact sourced_tagged (by decide) hsourced
    · exact hsourced

theorem sourced_literal {value : Value} (hvalue : value ∈ values) {bson : Bson} (h : Bson.ofValue value = .ok bson) :
    Sourced own names values .data bson :=
  sourced_ofValue (fun _ hkey => .literal hvalue hkey) h

theorem sourced_literals {literals : List Value}
    (hliterals : ∀ literal ∈ literals, ∃ value ∈ values, Value.Within literal value) {forms : List Bson}
    (h : Bson.ofValues literals = .ok forms) : Sourced own names values .data (.array forms) := by
  rw [Bson.ofValues_eq_mapM] at h
  apply sourced_array
  intro form hform
  obtain ⟨literal, hliteral, hsame⟩ := Outcome.exists_item_of_mapM_eq_ok h hform
  obtain ⟨value, hvalue, hwithin⟩ := hliterals literal hliteral
  exact sourced_ofValue (fun _ hkey => .literal hvalue (hkey.of_within hwithin)) hsame

/-! ### Filters -/

theorem sourced_onField {key : String} (hkey : key ∈ names) {condition : Document}
    (h : Sourced own names values .condition (.document condition)) :
    Sourced own names values .filter (.document (Filter.onField key condition)) := by
  apply sourced_single (.filtered hkey)
  rwa [Position.below, if_neg (escape_not_mem_operators .filter key)]

theorem sourced_test {operator key : String} (hoperator : operator ∈ Position.condition.operators) (hkey : key ∈ names)
    {operand : Bson} (h : Sourced own names values (Position.condition.below operator) operand) :
    Sourced own names values .filter (.document (Filter.onField key [(operator, operand)])) :=
  sourced_onField hkey (sourced_single (.operator hoperator) h)

theorem sourced_elementCondition {element : Bson} (h : Sourced own names values .data element) :
    Sourced own names values .condition (.document (Filter.elementCondition element)) :=
  sourced_single (.operator (by decide)) (sourced_single (.operator (by decide)) h)

theorem sourced_const (flag : Bool) : Sourced own names values .filter (.document (Filter.document (.const flag))) :=
  sourced_single (.operator (by decide)) (sourced_scalar rfl rfl)

theorem sourced_compare {key : String} (hkey : key ∈ names) (op : Comparison) {operand : Bson}
    (h : Sourced own names values .data operand) :
    Sourced own names values .filter (.document (Filter.document (.compare key op operand))) := by
  cases op <;> exact sourced_test (by decide) hkey h

theorem sourced_pair {first second : Filter} (hfirst : Sourced own names values .filter (.document first.document))
    (hsecond : Sourced own names values .filter (.document second.document)) :
    Sourced own names values .filter (.array (Filter.documents [first, second])) := by
  apply sourced_array
  simpa [Filter.documents] using ⟨hfirst, hsecond⟩

theorem sourced_ofCompare {op : Comparison} {a b : Operand} (hkeys : a.keys ++ b.keys ⊆ names)
    (hliterals : a.literals ++ b.literals ⊆ values) {filter : Filter} (h : Filter.ofCompare op a b = .ok filter) :
    Sourced own names values .filter (.document filter.document) := by
  cases a with
  | key key =>
    cases b with
    | key other => cases h
    | literal value =>
      obtain ⟨form, hform, rfl⟩ := Outcome.map_eq_ok_iff.mp h
      exact sourced_compare (hkeys List.mem_cons_self) op (sourced_literal (hliterals List.mem_cons_self) hform)
  | literal value =>
    cases b with
    | key key =>
      obtain ⟨form, hform, rfl⟩ := Outcome.map_eq_ok_iff.mp h
      exact sourced_compare (hkeys List.mem_cons_self) op.flipped (sourced_literal (hliterals List.mem_cons_self) hform)
    | literal other =>
      cases h
      exact sourced_const _

theorem exists_within_of_array {items : List Value} (h : Value.array items ∈ values) :
    ∀ item ∈ items, ∃ value ∈ values, Value.Within item value :=
  fun item hitem => ⟨_, h, .item hitem (.self item)⟩

/-- Membership and its negation put names at the same places. -/
theorem sourced_ofElement {a b : Operand} (hkeys : a.keys ++ b.keys ⊆ names) (hliterals : a.literals ++ b.literals ⊆ values)
    {filter : Filter} (h : Filter.ofElement a b = .ok filter ∨ Filter.ofNoElement a b = .ok filter) :
    Sourced own names values .filter (.document filter.document) := by
  cases a with
  | key key =>
    have hkey : key ∈ names := hkeys List.mem_cons_self
    cases b with
    | key other => rcases h with h | h <;> cases h
    | literal value =>
      cases value with
      | array items =>
        have hitems := exists_within_of_array (hliterals List.mem_cons_self)
        rcases h with h | h
        all_goals
          obtain ⟨forms, hforms, rfl⟩ := Outcome.map_eq_ok_iff.mp h
          exact sourced_test (by decide) hkey (sourced_literals hitems hforms)
      | _ =>
        rcases h with h | h
        all_goals
          cases h
          exact sourced_const _
  | literal value =>
    have hvalue : value ∈ values := hliterals List.mem_cons_self
    cases b with
    | key key =>
      have hkey : key ∈ names := hkeys List.mem_cons_self
      rcases h with h | h
      all_goals obtain ⟨form, hform, rfl⟩ := Outcome.map_eq_ok_iff.mp h
      · exact sourced_onField hkey (sourced_elementCondition (sourced_literal hvalue hform))
      · exact sourced_test (by decide) hkey (sourced_elementCondition (sourced_literal hvalue hform))
    | literal other =>
      rcases h with h | h
      all_goals
        cases h
        exact sourced_const _

mutual

theorem sourced_ofPredicate (predicate : Predicate) (hkeys : predicate.keys ⊆ names) (hliterals : predicate.literals ⊆ values)
    {filter : Filter} (h : Filter.ofPredicate predicate = .ok filter) :
    Sourced own names values .filter (.document filter.document) := by
  cases predicate with
  | not inner =>
    rw [Filter.ofPredicate] at h
    obtain ⟨part, hpart, rfl⟩ := Outcome.map_eq_ok_iff.mp h
    have hinner := sourced_ofPredicate inner hkeys hliterals hpart
    refine sourced_single (.operator (by decide)) (sourced_array fun item hitem => ?_)
    rwa [List.mem_singleton.mp hitem]
  | compare op lhs rhs => exact sourced_ofCompare hkeys hliterals h
  | elementOf element collection => exact sourced_ofElement hkeys hliterals (Or.inl h)
  | notElementOf element collection => exact sourced_ofElement hkeys hliterals (Or.inr h)
  | between value low high =>
    obtain ⟨lower, hlower, hrest⟩ := Outcome.bind_eq_ok_iff.mp h
    obtain ⟨upper, hupper, hsame⟩ := Outcome.bind_eq_ok_iff.mp hrest
    obtain rfl := Except.ok.inj hsame
    simp only [Predicate.keys, Predicate.literals, List.append_subset] at hkeys hliterals
    refine sourced_single (.operator (by decide)) (sourced_pair ?_ ?_)
    · exact sourced_ofCompare (List.append_subset.mpr ⟨hkeys.1.2, hkeys.1.1⟩)
        (List.append_subset.mpr ⟨hliterals.1.2, hliterals.1.1⟩) hlower
    · exact sourced_ofCompare (List.append_subset.mpr ⟨hkeys.1.1, hkeys.2⟩)
        (List.append_subset.mpr ⟨hliterals.1.1, hliterals.2⟩) hupper
  | notBetween value low high =>
    obtain ⟨lower, hlower, hrest⟩ := Outcome.bind_eq_ok_iff.mp h
    obtain ⟨upper, hupper, hsame⟩ := Outcome.bind_eq_ok_iff.mp hrest
    obtain rfl := Except.ok.inj hsame
    simp only [Predicate.keys, Predicate.literals, List.append_subset] at hkeys hliterals
    refine sourced_single (.operator (by decide)) (sourced_pair ?_ ?_)
    · exact sourced_ofCompare (List.append_subset.mpr hkeys.1) (List.append_subset.mpr hliterals.1) hlower
    · exact sourced_ofCompare (List.append_subset.mpr ⟨hkeys.1.1, hkeys.2⟩)
        (List.append_subset.mpr ⟨hliterals.1.1, hliterals.2⟩) hupper
  | pattern pattern key text =>
    cases h
    exact sourced_test (by decide) (hkeys List.mem_cons_self) (sourced_scalar rfl rfl)
  | all parts =>
    rw [Filter.ofPredicate] at h
    obtain ⟨filters, hfilters, rfl⟩ := Outcome.map_eq_ok_iff.mp h
    split
    · exact sourced_scalar rfl rfl
    · exact sourced_single (.operator (by decide)) (sourced_ofPredicates parts hkeys hliterals hfilters)
  | any parts =>
    rw [Filter.ofPredicate] at h
    obtain ⟨filters, hfilters, rfl⟩ := Outcome.map_eq_ok_iff.mp h
    split
    · exact sourced_const false
    · exact sourced_single (.operator (by decide)) (sourced_ofPredicates parts hkeys hliterals hfilters)
termination_by structural predicate

theorem sourced_ofPredicates (parts : List Predicate) (hkeys : Predicate.keysOfList parts ⊆ names)
    (hliterals : Predicate.literalsOfList parts ⊆ values) {filters : List Filter}
    (h : Filter.ofPredicates parts = .ok filters) : Sourced own names values .filter (.array (Filter.documents filters)) := by
  cases parts with
  | nil =>
    cases h
    exact sourced_array fun _ hnone => absurd hnone List.not_mem_nil
  | cons part parts =>
    obtain ⟨first, hfirst, hrest⟩ := Outcome.bind_eq_ok_iff.mp h
    obtain ⟨others, hothers, hsame⟩ := Outcome.bind_eq_ok_iff.mp hrest
    obtain rfl := Except.ok.inj hsame
    simp only [Predicate.keysOfList, Predicate.literalsOfList, List.append_subset] at hkeys hliterals
    have hhead := sourced_ofPredicate part hkeys.1 hliterals.1 hfirst
    have htail := sourced_ofPredicates parts hkeys.2 hliterals.2 hothers
    intro other name hstands
    cases hstands with
    | here hentry => cases hentry
    | field hentry => cases hentry
    | item hitem hinner =>
      rcases List.mem_cons.mp hitem with rfl | hitem
      · exact hhead _ _ hinner
      · exact htail _ _ (.item hitem hinner)
termination_by structural parts

end

/-! ### Changes -/

theorem sourced_operand {update : Update} (hvalues : update.values ⊆ values) {bson : Bson} (h : operand update = .ok bson) :
    Sourced own names values .data bson := by
  cases update with
  | set value | max value | min value | push value => exact sourced_literal (hvalues List.mem_cons_self) h
  | increment value | multiply value =>
    obtain ⟨_, -, hform⟩ := Outcome.bind_eq_ok_iff.mp h
    exact sourced_literal (hvalues List.mem_cons_self) hform
  | removeAll items =>
    obtain ⟨forms, hforms, rfl⟩ := Outcome.map_eq_ok_iff.mp h
    exact sourced_literals (fun item hitem => ⟨item, hvalues hitem, .self item⟩) hforms
  | unset | popFirst | popLast =>
    cases h
    exact sourced_scalar rfl rfl

/-- Where all names of the fields under every operator are from. -/
def SourcedChanges (own names : List String) (values : List Value) (changes : Changes) : Prop :=
  ∀ change ∈ changes, ∀ entry ∈ change.2, Written own names values .fields entry.1 ∧ Sourced own names values .data entry.2

theorem name_mem_operators (operator : Operator) : operator.name ∈ Position.changes.operators := by
  cases operator <;> decide

theorem SourcedChanges.document {changes : Changes} (h : SourcedChanges own names values changes) :
    Sourced own names values .changes (.document changes.document) := by
  apply sourced_document
  intro entry hentry
  obtain ⟨⟨operator, fields⟩, hchange, rfl⟩ := List.mem_map.mp hentry
  exact ⟨.operator (name_mem_operators operator), sourced_document (h _ hchange)⟩

theorem SourcedChanges.add {changes : Changes} (h : SourcedChanges own names values changes) {operator : Operator} {bson : Bson}
    (hname : Written own names values .fields name) (hbson : Sourced own names values .data bson) :
    SourcedChanges own names values (changes.add operator name bson) := by
  induction changes with
  | nil =>
    intro change hchange entry hentry
    obtain rfl := List.mem_singleton.mp hchange
    obtain rfl := List.mem_singleton.mp hentry
    exact ⟨hname, hbson⟩
  | cons first rest ih =>
    obtain ⟨hfirst, hrest⟩ := List.forall_mem_cons.mp h
    rw [Changes.add]
    split
    · refine List.forall_mem_cons.mpr ⟨fun entry hentry => ?_, hrest⟩
      rcases OrderedMap.mem_insert hentry with rfl | hold
      · exact ⟨hname, hbson⟩
      · exact hfirst entry hold
    · exact List.forall_mem_cons.mpr ⟨hfirst, ih hrest⟩

theorem SourcedChanges.foldlM {updates : Updates} (hkeys : OrderedMap.keys updates ⊆ names)
    (hvalues : updates.literals ⊆ values) {start changes : Changes} (hstart : SourcedChanges own names values start)
    (h : updates.foldlM (fun changes (key, update) => Changes.addUpdate changes key update) start = .ok changes) :
    SourcedChanges own names values changes := by
  induction updates generalizing start with
  | nil =>
    obtain rfl := Except.ok.inj h
    exact hstart
  | cons entry rest ih =>
    obtain ⟨key, update⟩ := entry
    rw [Changes.foldlM_addUpdate_cons] at h
    obtain ⟨next, hnext, hrest⟩ := Outcome.bind_eq_ok_iff.mp h
    obtain ⟨-, bson, hbson, rfl⟩ := Changes.addUpdate_eq_ok_iff.mp hnext
    obtain ⟨hkey, hkeys⟩ := List.cons_subset.mp hkeys
    obtain ⟨hupdate, hvalues⟩ := List.append_subset.mp hvalues
    exact ih hkeys hvalues (hstart.add (.listed hkey) (sourced_operand hupdate hbson)) hrest

theorem sourcedChanges_ofUpdates {updates : Updates} (hkeys : OrderedMap.keys updates ⊆ names)
    (hvalues : updates.literals ⊆ values) (hown : FieldName.physicalUpdatedAt ∈ own) {now : Instant} {changes : Changes}
    (h : Changes.ofUpdates updates now = .ok changes) : SourcedChanges own names values changes := by
  obtain ⟨listed, hlisted, rfl⟩ := Changes.ofUpdates_eq_ok_iff.mp h
  have hlisted : SourcedChanges own names values listed :=
    SourcedChanges.foldlM hkeys hvalues (fun _ hnone => absurd hnone List.not_mem_nil) hlisted
  exact hlisted.add (.own hown) (sourced_scalar rfl rfl)

theorem sourced_onInsert {updates : Updates} {setOnInsert : Fields} (hkeys : OrderedMap.keys setOnInsert ⊆ names)
    (hvalues : setOnInsert.map Prod.snd ⊆ values) {id : Option String} (hid : ∀ text, id = some text → FieldName.physicalId ∈ own)
    (hcreated : FieldName.physicalCreatedAt ∈ own) {now : Instant} {inserted : Document}
    (h : Changes.onInsert updates setOnInsert id now = .ok inserted) :
    ∀ entry ∈ inserted, Written own names values .fields entry.1 ∧ Sourced own names values .data entry.2 := by
  obtain ⟨listed, hlisted, hsame⟩ := Outcome.bind_eq_ok_iff.mp h
  obtain rfl := Except.ok.inj hsame
  intro entry hentry
  rcases OrderedMap.mem_extend hentry with hstamp | hcaller
  · rcases List.mem_append.mp hstamp with hid' | hcreated'
    · obtain ⟨text, htext, rfl⟩ := Option.map_eq_some_iff.mp (Option.mem_toList.mp hid')
      exact ⟨.own (hid text htext), sourced_scalar rfl rfl⟩
    · obtain rfl := List.mem_singleton.mp hcreated'
      exact ⟨.own hcreated, sourced_scalar rfl rfl⟩
  · rw [Bson.ofFields_eq_mapM] at hlisted
    obtain ⟨field, hfield, hsame⟩ := Outcome.exists_item_of_mapM_eq_ok hlisted hcaller
    obtain ⟨form, hform, rfl⟩ := Outcome.map_eq_ok_iff.mp hsame
    have hfield := List.mem_of_mem_filter hfield
    exact ⟨.listed (hkeys (List.mem_map_of_mem hfield)), sourced_literal (hvalues (List.mem_map_of_mem hfield)) hform⟩

/-! ### Orders and projections -/

theorem sourced_listed {α : Type} {items : List α} {key : α → String} {scalar : α → Bson}
    (hkeys : ∀ item ∈ items, key item ∈ names)
    (hscalar : ∀ item ∈ items, (scalar item).fields = [] ∧ (scalar item).items = []) :
    Sourced own names values .fields (.document (items.map fun item => (Percent.escape (key item), scalar item))) := by
  apply sourced_document
  intro entry hentry
  obtain ⟨item, hitem, rfl⟩ := List.mem_map.mp hentry
  exact ⟨.listed (hkeys item hitem), sourced_scalar (hscalar item hitem).1 (hscalar item hitem).2⟩

theorem sourced_sortDocument {sort : SortKeys} (hkeys : OrderedMap.keys sort ⊆ names) {document : Document}
    (h : sortDocument? sort = some document) : Sourced own names values .fields (.document document) := by
  rw [sortDocument?] at h
  split at h
  · cases h
  · cases h
    refine sourced_listed (fun item hitem => hkeys (List.mem_map_of_mem hitem)) fun item _ => ?_
    cases item.2 <;> exact ⟨rfl, rfl⟩

theorem sourced_projection {includes : NameSet} (hkeys : includes ⊆ names) :
    Sourced own names values .fields (.document (projection includes)) :=
  sourced_listed hkeys fun _ _ => ⟨rfl, rfl⟩

end Sourced

/-! ### All documents -/

/-- Every name of a datum is from where such names can be from, and unless it is an operator where operators stand, it has no character of operators or paths. -/
def Harmless (own names : List String) (values : List Value) (place : Position) (bson : Bson) : Prop :=
  ∀ other name, Stands place bson other name →
    Written own names values other name ∧ (name ∈ other.operators ∨ Plain name)

theorem Sourced.harmless {own names : List String} {values : List Value} {place : Position} {bson : Bson}
    (hown : own ⊆ FieldName.reserved) (h : Sourced own names values place bson) : Harmless own names values place bson :=
  fun other name hstands => ⟨h other name hstands, (h other name hstands).operator_or_plain hown⟩

/-- The names that the document of an upsert has on its own account: the stamps, and the id if there is one to write. -/
def upsertNames (id : Option String) : List String :=
  [FieldName.physicalUpdatedAt, FieldName.physicalCreatedAt] ++ (id.map fun _ => FieldName.physicalId).toList

theorem upsertNames_subset (id : Option String) : upsertNames id ⊆ FieldName.reserved := by
  cases id <;> simp [upsertNames, FieldName.reserved]

/-- Names of callers and of literals never become operators or paths, in any document that is sent. Only the documents of updates have names of the library's own that are no operators: the stamp of the update, and for an upsert also what an inserted record is stamped with. The form of a literal has no operator at all. -/
theorem names_harmless :
    (∀ (predicate : Option Predicate) (filter : Filter), Filter.ofOptional predicate = .ok filter →
      Harmless [] (Predicate.keysOfList predicate.toList) (Predicate.literalsOfList predicate.toList) .filter
        (.document filter.document)) ∧
    (∀ (updates : Updates) (now : Instant) (changes : Changes), Changes.ofUpdates updates now = .ok changes →
      Harmless [FieldName.physicalUpdatedAt] (OrderedMap.keys updates) updates.literals .changes
        (.document changes.document)) ∧
    (∀ (updates : Updates) (setOnInsert : Fields) (id : Option String) (now : Instant) (changes : Changes),
      Changes.ofUpsert updates setOnInsert id now = .ok changes →
      Harmless (upsertNames id) (OrderedMap.keys updates ++ OrderedMap.keys setOnInsert)
        (updates.literals ++ setOnInsert.map Prod.snd) .changes (.document changes.document)) ∧
    (∀ (sort : SortKeys) (document : Document), sortDocument? sort = some document →
      Harmless [] (OrderedMap.keys sort) [] .fields (.document document)) ∧
    (∀ includes : NameSet, Harmless [] includes [] .fields (.document (projection includes))) ∧
    (∀ (value : Value) (bson : Bson), Bson.ofValue value = .ok bson →
      ∀ other name, Stands .data bson other name → Written [] [] [value] .data name ∧ Plain name) := by
  refine ⟨?filters, ?updates, ?upserts, ?orders, ?projections, ?literals⟩
  case filters =>
    intro predicate filter h
    apply Sourced.harmless (List.nil_subset _)
    cases predicate with
    | none =>
      cases h
      exact sourced_scalar rfl rfl
    | some predicate => exact sourced_ofPredicate predicate (by simp [Predicate.keysOfList]) (by simp [Predicate.literalsOfList]) h
  case updates =>
    intro updates now changes h
    have hchanges : SourcedChanges [FieldName.physicalUpdatedAt] (OrderedMap.keys updates) updates.literals changes :=
      sourcedChanges_ofUpdates (List.Subset.refl _) (List.Subset.refl _) List.mem_cons_self h
    exact hchanges.document.harmless (by decide)
  case upserts =>
    intro updates setOnInsert id now changes h
    obtain ⟨updated, inserted, hupdated, hinserted, rfl⟩ := Changes.ofUpsert_eq_ok_iff.mp h
    refine (SourcedChanges.document fun change hchange => ?_).harmless (upsertNames_subset id)
    rcases List.mem_append.mp hchange with hchange | hchange
    · exact sourcedChanges_ofUpdates (List.subset_append_left _ _) (List.subset_append_left _ _) (by simp [upsertNames])
        hupdated change hchange
    · obtain rfl := List.mem_singleton.mp hchange
      exact sourced_onInsert (List.subset_append_right _ _) (List.subset_append_right _ _)
        (fun text hid => by simp [upsertNames, hid]) (by simp [upsertNames]) hinserted
  case orders =>
    intro sort document h
    exact (sourced_sortDocument (List.Subset.refl _) h).harmless (List.nil_subset _)
  case projections =>
    intro includes
    exact (sourced_projection (List.Subset.refl _)).harmless (List.nil_subset _)
  case literals =>
    intro value bson h other name hstands
    have hsourced : Sourced [] [] [value] .data bson := sourced_literal List.mem_cons_self h
    obtain rfl := hstands.data
    obtain ⟨hwritten, hplain⟩ := hsourced.harmless (List.nil_subset _) _ name hstands
    exact ⟨hwritten, hplain.resolve_left List.not_mem_nil⟩

/-- A filter whose key and literal look like operators and paths. -/
def hostile : Predicate :=
  .compare .equal (.key "$where") (.literal (.object [("$gt", .object [("a.b", .null)]), ("$$calendar-date", .null)]))

theorem hostile_harmless : ∃ filter, Filter.ofOptional (some hostile) = .ok filter ∧
    Harmless [] ["$where"] hostile.literals .filter (.document filter.document) ∧
    Stands .filter (.document filter.document) .data "a%2Eb" := by
  obtain ⟨filter, hfilter⟩ : ∃ filter, Filter.ofOptional (some hostile) = .ok filter := ⟨_, rfl⟩
  refine ⟨filter, hfilter, ?_, ?_⟩
  · have hharmless := names_harmless.1 (some hostile) filter hfilter
    simpa [Predicate.keysOfList, Predicate.literalsOfList, hostile, Predicate.keys, Predicate.literals, Operand.keys] using hharmless
  · obtain rfl := Except.ok.inj hfilter
    exact .under List.mem_cons_self (.under List.mem_cons_self (.under List.mem_cons_self (.name List.mem_cons_self)))

/-- The stamp of an update is written under a name that neither the caller nor a literal gave and that is no operator. -/
theorem stamp_not_from_caller : ∃ changes, Changes.ofUpdates [] default = .ok changes ∧
    ¬ Harmless [] (OrderedMap.keys ([] : Updates)) (Updates.literals []) .changes (.document changes.document) := by
  refine ⟨_, rfl, fun h => ?_⟩
  have hwritten := (h .fields _ (.under List.mem_cons_self (.name List.mem_cons_self))).1
  generalize FieldName.physicalUpdatedAt = name at hwritten
  cases hwritten with
  | operator h => cases h
  | own h => cases h
  | listed h => cases h

end Documents

end ObjectStore
