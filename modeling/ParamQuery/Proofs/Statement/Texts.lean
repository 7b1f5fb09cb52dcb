import Mathlib.Data.Finset.Card
import ParamQuery.Proofs.Join
import ParamQuery.Proofs.Statement.Noted

/-!
# Values stay out of the text

The text of a statement is made of names and of one question mark for each bound text: it is the
text of the same statement with blank values. Requests that differ in their values alone therefore
lead to statements with the same texts, and what the text of a question for related rows shows of
the rows that it is made for is how many different keys they have.

## Main definitions

* `Statement.blank` — a statement with blank values.
* `QueryIntent.Alike` — intents that differ in their values alone.
* `distinctKeys` — how many different keys a page has.

## Main statements

* `Statement.sql_blank` — the text of a statement is that of the statement with blank values.
* `QueryIntent.Alike.plans`, `Wanted.texts_attach` — what intents that differ in their values lead
  to.
* `Action.texts_of_alike` — the texts of the statements of reading and writing.
-/

namespace ParamQuery

/-! ## Blank values -/

/-- A condition with blank values, as many as before. -/
def Condition.blank : Condition → Condition
  | .search columns _ => .search columns ""
  | .compare c => .compare { c with value := "" }
  | .oneOf column values => .oneOf column (values.map fun _ => "")

/-- A question with blank values. -/
def Query.blank (q : Query) : Query := { q with conditions := q.conditions.map Condition.blank }

/-- Values to write, all blank. -/
def blankValues (values : List (String × String)) : List (String × String) :=
  values.map fun entry => (entry.1, "")

/-- A statement with blank values. -/
def Statement.blank : Statement → Statement
  | .select q => .select q.blank
  | .count table conditions => .count table (conditions.map Condition.blank)
  | .insert table values => .insert table (blankValues values)
  | .update table values keyColumn _ => .update table (blankValues values) keyColumn ""
  | .delete table keyColumn _ => .delete table keyColumn ""

theorem Condition.sql_blank (c : Condition) : c.blank.sql = c.sql := by
  cases c with
  | search columns pattern => rfl
  | compare c => rfl
  | oneOf column values => simp [blank, sql]

theorem whereSql_blank (conditions : List Condition) :
    whereSql (conditions.map Condition.blank) = whereSql conditions := by
  have hsql : (conditions.map Condition.blank).map Condition.sql =
      conditions.map Condition.sql := by
    rw [List.map_map]
    exact List.map_congr_left fun c _ => c.sql_blank
  rw [whereSql, whereSql, hsql, List.isEmpty_map]

theorem Query.sql_blank (q : Query) : q.blank.sql = q.sql := by
  simp only [Query.sql, blank, whereSql_blank]
  rfl

/-- The text of a statement does not show its values. -/
theorem Statement.sql_blank (st : Statement) : st.blank.sql = st.sql := by
  -- unfolded before the cases: the equations of `sql` would be found by evaluating the texts
  unfold sql blank
  cases st with
  | select q => exact q.sql_blank
  | count table conditions => simp only [whereSql_blank]
  | insert table values => simp [blankValues, Function.comp_def]
  | update table values keyColumn key => simp [blankValues, Function.comp_def]
  | delete table keyColumn key => rfl

theorem Statement.sql_eq_of_blank_eq {st st' : Statement} (h : st.blank = st'.blank) :
    st.sql = st'.sql := by
  rw [← st.sql_blank, h, st'.sql_blank]

/-! ## Intents that differ in their values -/

/-- Buckets with the same columns for each comparison, in the same order. -/
def FilterBuckets.Alike (b b' : FilterBuckets) : Prop :=
  ∀ op, (b.bucket op).keys = (b'.bucket op).keys

/-- Filters with the same comparisons, for the rows that are read and for each relation. -/
structure FilterSet.Alike (f f' : FilterSet) : Prop where
  base : f.base.Alike f'.base
  relation? : ∀ name, Option.Rel FilterBuckets.Alike (f.relation? name) (f'.relation? name)

/-- Intents that differ in the values to compare with, to write and to search for alone; if one
searches for a text, the other does too. -/
structure QueryIntent.Alike (i j : QueryIntent) : Prop where
  fields : i.fields = j.fields
  filter : i.filter.Alike j.filter
  searched : i.search.fields = j.search.fields
  q : i.search.q = "" ↔ j.search.q = ""
  order : i.order = j.order
  pagination : i.pagination = j.pagination
  body : i.body.keys = j.body.keys

theorem blank_filterConditions (b : FilterBuckets) :
    (filterConditions b).map Condition.blank =
      CompareOp.all.flatMap fun op =>
        (b.bucket op).keys.map fun column => .compare ⟨op, column, ""⟩ := by
  simp only [filterConditions, FilterBuckets.conditions, List.map_map, List.map_flatMap,
    OrderedMap.keys, Assoc.keys, Function.comp_def, Condition.blank]

theorem FilterBuckets.Alike.blank_filterConditions {b b' : FilterBuckets} (h : b.Alike b') :
    (filterConditions b).map Condition.blank = (filterConditions b').map Condition.blank := by
  rw [ParamQuery.blank_filterConditions, ParamQuery.blank_filterConditions]
  simp only [h _]

theorem blank_searchConditions {q q' : String} (h : q = "" ↔ q' = "") (columns : List String)
    (label : Option String) :
    (searchConditions q columns label).map Condition.blank =
      (searchConditions q' columns label).map Condition.blank := by
  unfold searchConditions
  simp only [String.isEmpty_iff, h]
  split
  · rfl
  · cases columns <;> rfl

theorem blankValues_entries (body : OrderedMap String) :
    blankValues body.entries = body.keys.map fun column => (column, "") := by
  simp [blankValues, OrderedMap.keys, Assoc.keys]

section

variable {i j : QueryIntent}

theorem QueryIntent.Alike.blank_readConditions (h : i.Alike j) (m : Model) (caps : Capabilities) :
    (readConditions m i caps).map Condition.blank =
      (readConditions m j caps).map Condition.blank := by
  have hsearch := blank_searchConditions h.q j.search.fields m.labelColumn
  have hfilter := h.filter.base.blank_filterConditions
  rw [readConditions, readConditions, List.map_append, List.map_append, h.searched]
  congr 1
  · split
    · exact hsearch
    · rfl
  · split
    · exact hfilter
    · rfl

/-- Intents that differ in their values have no plan for the same reason, or plans whose questions
differ in their values. -/
theorem QueryIntent.Alike.plans (h : i.Alike j) (m : Model) (caps : Capabilities) :
    (∃ e, ReadPlan.make m i caps = .error e ∧ ReadPlan.make m j caps = .error e) ∨
      ∃ plan plan', ReadPlan.make m i caps = .ok plan ∧ ReadPlan.make m j caps = .ok plan' ∧
        plan.query.blank = plan'.query.blank := by
  have hconditions := h.blank_readConditions m caps
  have horder : readOrder m i caps = readOrder m j caps := by rw [readOrder, readOrder, h.order]
  have hpage : readPage i caps = readPage j caps := by rw [readPage, readPage, h.pagination]
  unfold ReadPlan.make
  rw [h.fields]
  cases wantedRelations m j.fields caps with
  | error e => exact .inl ⟨e, rfl, rfl⟩
  | ok wanted => exact .inr ⟨_, _, rfl, rfl, by simp [Query.blank, hconditions, horder, hpage]⟩

theorem QueryIntent.Alike.relationFilter (h : i.Alike j) (caps : Capabilities) (w : Wanted) :
    Option.Rel FilterBuckets.Alike (Action.relationFilter i caps w)
      (Action.relationFilter j caps w) := by
  unfold Action.relationFilter
  split
  · exact h.filter.relation? w.relation.name
  · exact .none

end

/-! ## Keys of a page -/

/-- How many different keys the rows of a page have in a column. -/
def distinctKeys (column : String) (page : List Entity) : Nat :=
  (page.filterMap fun entity => entity.key? column).toFinset.card

theorem length_pageKeys (column : String) (page : List Entity) :
    (pageKeys column page).length = distinctKeys column page := by
  rw [← List.toFinset_card_of_nodup (nodup_pageKeys column page), distinctKeys]
  congr 1
  ext key
  simp [mem_pageKeys]

namespace Wanted

/-- Questions for the related rows of equally many keys differ in their values alone. -/
theorem blank_query {w : Wanted} {filter filter' : Option FilterBuckets} {keys keys' : List String}
    (hfilter : Option.Rel FilterBuckets.Alike filter filter') (hkeys : keys.length = keys'.length) :
    (w.query filter keys).blank = (w.query filter' keys').blank := by
  have hconditions : ((filter.map filterConditions).getD []).map Condition.blank =
      ((filter'.map filterConditions).getD []).map Condition.blank := by
    cases hfilter with
    | none => rfl
    | some h => exact h.blank_filterConditions
  simp [query, Query.blank, Condition.blank, hconditions, hkeys]

/-- Of the rows that it is loaded for, the statement that loads a relation shows the number of
different keys. -/
theorem texts_attach {w : Wanted} {filter filter' : Option FilterBuckets}
    (hfilter : Option.Rel FilterBuckets.Alike filter filter') {page page' : List Entity}
    (hkeys : distinctKeys w.relation.parentColumn page = distinctKeys w.relation.parentColumn page')
    (db db' : Database) :
    (w.attach filter page).texts db = (w.attach filter' page').texts db' := by
  rw [← length_pageKeys, ← length_pageKeys] at hkeys
  have hempty : (pageKeys w.relation.parentColumn page).isEmpty =
      (pageKeys w.relation.parentColumn page').isEmpty := by
    rw [Bool.eq_iff_iff, List.isEmpty_iff_length_eq_zero, List.isEmpty_iff_length_eq_zero, hkeys]
  have hsql : (Statement.select (w.query filter (pageKeys w.relation.parentColumn page))).sql =
      (Statement.select (w.query filter' (pageKeys w.relation.parentColumn page'))).sql :=
    Statement.sql_eq_of_blank_eq (congrArg Statement.select (blank_query hfilter hkeys))
  rw [Action.texts, Action.texts, noted_attach, noted_attach, hempty]
  split
  · rfl
  · exact congrArg (fun text => [text]) hsql

end Wanted

/-! ## Reading and writing -/

theorem QueryIntent.Alike.isEmpty_body {i j : QueryIntent} (h : i.Alike j) :
    i.body.isEmpty = j.body.isEmpty := by
  have hkeys (body : OrderedMap String) : body.isEmpty = body.keys.isEmpty := by
    simp [OrderedMap.isEmpty, OrderedMap.keys, Assoc.keys]
  rw [hkeys, hkeys, h.body]

namespace Action

variable {m : Model} {caps : Capabilities} {i j : QueryIntent} {db db' : Database}

theorem head?_texts_read (h : i.Alike j) :
    ((read m i caps).texts db).head? = ((read m j caps).texts db').head? := by
  have hi := noted_read m i caps db
  have hj := noted_read m j caps db'
  rcases h.plans m caps with ⟨e, hmake, hmake'⟩ | ⟨plan, plan', hmake, hmake', hblank⟩
  · rw [hmake] at hi
    rw [hmake'] at hj
    rw [texts, texts, hi, hj]
  · rw [hmake] at hi
    rw [hmake'] at hj
    obtain ⟨later, hi, _⟩ := hi
    obtain ⟨later', hj, _⟩ := hj
    have hsql : (Statement.select plan.query).sql = (Statement.select plan'.query).sql :=
      Statement.sql_eq_of_blank_eq (congrArg Statement.select hblank)
    rw [texts, texts, hi, hj]
    exact congrArg some hsql

/-- The texts of what two reads count are the same, if both count anything. -/
theorem sql_count_eq (h : i.Alike j) {table table' : String}
    {conditions conditions' : List Condition}
    (hi : .count table conditions ∈ (read m i caps).noted db)
    (hj : .count table' conditions' ∈ (read m j caps).noted db') :
    (Statement.count table conditions).sql = (Statement.count table' conditions').sql := by
  obtain ⟨plan, hplan, rfl, rfl⟩ := exists_plan_of_count_mem hi
  obtain ⟨plan', hplan', rfl, rfl⟩ := exists_plan_of_count_mem hj
  rcases h.plans m caps with ⟨e, hmake, _⟩ | ⟨_, _, hmake, hmake', hblank⟩
  · rw [hmake] at hplan
    cases hplan
  · obtain rfl := Except.ok.inj (hmake.symm.trans hplan)
    obtain rfl := Except.ok.inj (hmake'.symm.trans hplan')
    have htable := congrArg Query.table hblank
    have hconditions := congrArg Query.conditions hblank
    exact Statement.sql_eq_of_blank_eq (congrArg₂ Statement.count htable hconditions)

theorem texts_create (h : i.Alike j) :
    (create m i caps).texts db = (create m j caps).texts db' := by
  have hsql : (Statement.insert m.table i.body.entries).sql =
      (Statement.insert m.table j.body.entries).sql := by
    refine Statement.sql_eq_of_blank_eq ?_
    simp only [Statement.blank, blankValues_entries, h.body]
  rw [texts, texts, noted_create, noted_create, h.isEmpty_body]
  split
  · rfl
  · exact congrArg (fun text => [text]) hsql

theorem head?_texts_update (h : i.Alike j) (key key' : String) :
    ((update m key i caps).texts db).head? = ((update m key' j caps).texts db').head? := by
  have hsql : (Statement.update m.table i.body.entries m.primaryKey key).sql =
      (Statement.update m.table j.body.entries m.primaryKey key').sql := by
    refine Statement.sql_eq_of_blank_eq ?_
    simp only [Statement.blank, blankValues_entries, h.body]
  have hi := noted_update m key i caps db
  have hj := noted_update m key' j caps db'
  rw [h.isEmpty_body, h.fields] at hi
  split at hi
  · next hempty =>
    rw [if_pos hempty] at hj
    rw [texts, texts, hi, hj]
  · next hbody =>
    rw [if_neg hbody] at hj
    cases hwanted : wantedRelations m j.fields caps with
    | error e =>
      rw [hwanted] at hi hj
      rw [texts, texts, hi, hj]
    | ok wanted =>
      rw [hwanted] at hi hj
      obtain ⟨_, hi, _⟩ := hi
      obtain ⟨_, hj, _⟩ := hj
      rw [texts, texts, hi, hj]
      exact congrArg some hsql

/-- For intents that differ in the values to compare with, to write and to search for alone, and for
all keys and databases, the texts of the statements are the same: of the question for a page, of the
count of its rows, and of creating, updating and deleting rows. The texts of the questions for
related rows are the same for pages with equally many keys. Each statement is made if there is
anything to ask for or to write. -/
theorem texts_of_alike (h : i.Alike j) (m : Model) (caps : Capabilities) (key key' : String)
    (db db' : Database) :
    (((read m i caps).texts db).head? = ((read m j caps).texts db').head? ∧
      ∀ plan, ReadPlan.make m i caps = .ok plan →
        ((read m i caps).noted db).head? = some (.select plan.query)) ∧
    (∀ table table' conditions conditions',
      .count table conditions ∈ (read m i caps).noted db →
      .count table' conditions' ∈ (read m j caps).noted db' →
      (Statement.count table conditions).sql = (Statement.count table' conditions').sql) ∧
    ((create m i caps).texts db = (create m j caps).texts db' ∧
      (i.body.isEmpty = false →
        (create m i caps).noted db = [.insert m.table i.body.entries])) ∧
    (((update m key i caps).texts db).head? = ((update m key' j caps).texts db').head? ∧
      (i.body.isEmpty = false → ∀ wanted, wantedRelations m i.fields caps = .ok wanted →
        ((update m key i caps).noted db).head? =
          some (.update m.table i.body.entries m.primaryKey key))) ∧
    (delete m key = perform (.delete m.table m.primaryKey key) >>= removed m key ∧
      delete m key' = perform (.delete m.table m.primaryKey key') >>= removed m key' ∧
      (Statement.delete m.table m.primaryKey key).sql =
        (Statement.delete m.table m.primaryKey key').sql) ∧
    ∀ (w : Wanted) (page page' : List Entity),
      distinctKeys w.relation.parentColumn page = distinctKeys w.relation.parentColumn page' →
        (w.attach (relationFilter i caps w) page).texts db =
          (w.attach (relationFilter j caps w) page').texts db' ∧
        (w.attach (i.filter.relation? w.relation.name) page).texts db =
          (w.attach (j.filter.relation? w.relation.name) page').texts db' := by
  refine ⟨⟨head?_texts_read h, fun plan hplan => ?_⟩, fun _ _ _ _ => sql_count_eq h,
    ⟨texts_create h, fun hbody => ?_⟩,
    ⟨head?_texts_update h key key', fun hbody wanted hwanted => ?_⟩,
    ⟨delete_eq m key, delete_eq m key', rfl⟩, fun w page page' hkeys => ?_⟩
  · have hread := noted_read m i caps db
    rw [hplan] at hread
    obtain ⟨later, hread, _⟩ := hread
    rw [hread, List.head?_cons]
  · rw [noted_create, hbody]
    rfl
  · have hupdate := noted_update m key i caps db
    rw [hbody, hwanted] at hupdate
    obtain ⟨later, hupdate, _⟩ := hupdate
    rw [hupdate, List.head?_cons]
  · exact ⟨Wanted.texts_attach (h.relationFilter caps w) hkeys db db',
      Wanted.texts_attach (h.filter.relation? w.relation.name) hkeys db db'⟩

/-- The second page of the people with a name in which a text is found, or a new name for one. -/
def named (q name : String) : QueryIntent where
  filter := { base := FilterBuckets.insert {} .eq "name" name }
  search := ⟨q, ["name"]⟩
  pagination := ⟨5, 5⟩
  body := .ofList [("name", name)]

def harmless : QueryIntent := named "n" "Anna"

/-- The same with values that would end the text that they stood in. -/
def hostile : QueryIntent := named "%" "'; DROP TABLE people; --"

def peopleModel : Model := { table := "people" }

/-- One of the people. -/
def anna : Database where
  tables := [{
    name := "people"
    columns := [⟨"id", .integer⟩, ⟨"name", .varchar⟩]
    key := some "id"
    rows := [[.integer 1, .text "Anna"]] }]

/-- Orders of people, with their totals. -/
def ordersOf : Wanted := ⟨.hasMany "orders" "orders" "person_id", ["total"]⟩

theorem texts_of_hostile :
    harmless.Alike hostile ∧
    ((read peopleModel harmless .read).texts anna).head? =
      ((read peopleModel hostile .read).texts anna).head? ∧
    (∃ conditions conditions',
      .count "people" conditions ∈ (read peopleModel harmless .read).noted anna ∧
      .count "people" conditions' ∈ (read peopleModel hostile .read).noted anna ∧
      (Statement.count "people" conditions).sql = (Statement.count "people" conditions').sql) ∧
    (create peopleModel harmless .read).noted anna = [.insert "people" [("name", "Anna")]] ∧
    ((update peopleModel "1" harmless .read).texts anna).head? =
      ((update peopleModel "0' OR '1'='1" hostile .read).texts anna).head? ∧
    (ordersOf.attach (relationFilter harmless .read ordersOf)
        [.ofList [("id", .int 1)], .ofList [("id", .int 1)]]).texts anna =
      (ordersOf.attach (relationFilter hostile .read ordersOf)
        [.ofList [("id", .string "0) OR (1=1")], .ofList [("id", .null)]]).texts anna := by
  have hlike : harmless.Alike hostile := by
    refine ⟨rfl, ⟨fun op => ?_, fun _ => .none⟩, rfl, by decide, rfl, rfl, rfl⟩
    cases op <;> rfl
  obtain ⟨⟨hread, _⟩, hcount, ⟨_, hcreate⟩, ⟨hupdate, _⟩, _, hload⟩ :=
    texts_of_alike hlike peopleModel .read "1" "0' OR '1'='1" anna anna
  have hcounts : .count "people" _ ∈ (read peopleModel harmless .read).noted anna :=
    List.mem_cons_of_mem _ List.mem_cons_self
  have hcounts' : .count "people" _ ∈ (read peopleModel hostile .read).noted anna :=
    List.mem_cons_of_mem _ List.mem_cons_self
  exact ⟨hlike, hread, ⟨_, _, hcounts, hcounts', hcount _ _ _ _ hcounts hcounts'⟩, hcreate rfl,
    hupdate, (hload ordersOf _ _ (by decide)).1⟩

end Action

end ParamQuery
