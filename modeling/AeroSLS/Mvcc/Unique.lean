import AeroSLS.Mvcc.Values

namespace AeroSLS.Mvcc

open Rowstore Version Machine List Function

variable {slot : CatalogSlot} {exclude : ℕ} {t : MvccTxn}

def rowConstraintAddUnique (db : Db) (table column : String) : Db × RowConstraintResult :=
  rcAdd db .unique table column Text.empty Text.empty "" "" .restrict

/-- No two rows of table `o` hold the same value in column `c`. -/
def UniqueIn (o c : ℕ) (type : FieldType) (w : ℕ → Option Row) : Prop :=
  ∀ k m r r' x, k ≠ m → w k = some (o, r) → w m = some (o, r') → typedAt type r c = some x →
    typedAt type r' c ≠ some x

lemma UniqueIn.update {type : FieldType} (h : UniqueIn o c type w)
    (hnew : ∀ r x, v = some (o, r) → typedAt type r c = some x →
      ∀ m r', m ≠ k → w m = some (o, r') → typedAt type r' c ≠ some x) :
    UniqueIn o c type (update w k v) := by
  intro a b r r' x hab ha hb hx hx'
  by_cases hak : a = k
  · grind
  rw [update_of_ne hak] at ha
  by_cases hbk : b = k
  · grind
  · rw [update_of_ne hbk] at hb
    exact h a b r r' x hab ha hb hx hx'

structure UniqueOn (db : Db) (table : String) (o c : ℕ) (type : FieldType) : Prop where
  column : ∃ i slot hd col, lookupTable db.store table = some (i, slot, hd) ∧ slot.objectId = o ∧
    hd.layout.columns[c]? = some col ∧ col.type = type
  registered : ∃ d ∈ db.constraints, d.active = true ∧ d.kind = .unique ∧ d.tableObjectId = o ∧
    d.tableName = table ∧ d.columnIndex = c

/-- Whatever in the table holds the value to be written and may stay is seen by the writer. -/
def Db.DuplicatesSeen (db : Db) (env : Env) (table : String) (o c : ℕ) (type : FieldType)
    (txn uid exclude : ℕ) (values : RowValues) : Prop :=
  values.isNull c = false → Canonical type (values.text c) ∧ env.access uid table .read = true ∧
    ∀ v ∈ db.versions, v.active = true → v.tableObjectId = o → v.xmaxCommitted = false →
      v.xmaxTxn ≠ txn → v.logicalId ≠ exclude →
      typedAt type (v.cell db.store).val.2 c = typedAt type values c →
      ∀ t ∈ db.txns, t.txnId = txn → mvVisible v t = true

/-- What is asked of a call: an insert or update of the table sees the duplicates. -/
def UniqueGuard (table : String) (o c : ℕ) (type : FieldType) (db : Db) (a : Act) : Prop :=
  match a.2 with
  | .insert txn uid name values => (lookupTable db.store name).map (·.2.1.objectId) = some o →
      db.DuplicatesSeen a.1 table o c type txn uid 0 values
  | .update txn uid name id values => (lookupTable db.store name).map (·.2.1.objectId) = some o →
      db.DuplicatesSeen a.1 table o c type txn uid id values
  | _ => True

section Unique

variable {db db' : Db} {used : ℕ → List RowId} {env : Env} {table : String} {o c txn uid : ℕ}
  {type : FieldType} {values : RowValues}

lemma UniqueOn.frame (hu : UniqueOn db table o c type) (hcat : SameCatalog db.store db'.store)
    (hcons : db'.constraints = db.constraints) (hdist : DistinctTables db.store) :
    UniqueOn db' table o c type := by
  obtain ⟨i, slot, hd, col, hl, hid, hcol, htype⟩ := hu.column
  obtain ⟨htab, rfl⟩ := lookupTable_isTable hl
  obtain ⟨slot', hd', htab', hid', hname, hlayout⟩ := hcat.isTable htab
  refine ⟨⟨i, slot', hd', col, ?_, hid'.trans hid, by rw [hlayout]; exact hcol, htype⟩, ?_⟩
  · rw [← hname]
    exact htab'.lookup (hcat.distinct hdist)
  · rw [hcons]
    exact hu.registered

lemma checkWriteOne_of_all
    (h : checkWriteAll env db txn uid tableObjectId values exclude cs = .ok) :
    ∀ d ∈ cs, d.active → d.tableObjectId = tableObjectId → d.columnIndex < values.count →
      checkWriteOne env db txn uid values exclude d = .ok := by
  induction cs with
  | nil => exact fun d hd => by cases hd
  | cons e cs ih => grind [checkWriteAll]

section

variable (hu : UniqueOn db table o c type) (h : db.Inv used) (hfloat : type ≠ .float)
include hu h hfloat

/-- The check and the guard together: no world of the writer holds the value in
another row. -/
theorem UniqueOn.no_clash (ht : t ∈ db.txns) (hcount : c < values.count)
    (hchecked : rowConstraintCheckWrite env db t.txnId uid o values exclude = .ok)
    (hseen : db.DuplicatesSeen env table o c type t.txnId uid exclude values) (hS : t.txnId ∈ S)
    {x : TypedValue} (hm : db.pool.world S m = some (o, r)) (hne : m ≠ exclude)
    (hx : typedAt type values c = some x) : typedAt type r c ≠ some x := by
  intro hr
  obtain ⟨i, slot, hd, col, hl, rfl, hcol, rfl⟩ := hu.column
  obtain ⟨d, hd', hact, hkind, hdtable, rfl, rfl⟩ := hu.registered
  obtain ⟨hnull, hparse⟩ := parseCell_of_typedAt hx
  obtain ⟨hcanon, hacc, hvis⟩ := hseen hnull
  obtain ⟨v, hv, hvact, hlog, hval, hdone, hxmax⟩ := h.world_version hm
  have htable : v.tableObjectId = slot.objectId := congrArg Prod.fst hval
  have hpos : t.txnId ≠ 0 := Nat.ne_of_gt (h.txn_range t ht).1
  have hvisible := hvis v hv hvact htable hdone (hxmax t.txnId hS hpos) (hlog ▸ hne)
    (by rw [hval, hr, hx]) t ht rfl
  -- so the scan of the check shows the row, with the text that is to be written
  have hmem := (h.mem_scan ht hl hacc).mpr ((h.sees_eq_some ht).mpr ⟨v, hv, hvact, hlog, hvisible,
    hval⟩)
  obtain ⟨u, hser, hcell⟩ := h.cell_canon hv hvact hl htable
  obtain rfl : r = canon hd.layout u := congrArg Prod.snd (hval.symm.trans hcell)
  have htext : (canon hd.layout u).text d.columnIndex = values.text d.columnIndex := by
    rw [text_canon_of_typedAt hcol hfloat hser hr, hcanon x hparse]
  have hone := checkWriteOne_of_all hchecked d hd' hact hdtable hcount
  rw [checkWriteOne, hkind] at hone
  simp only [hnull, Bool.false_eq_true, if_false] at hone
  split_ifs at hone with hany
  refine hany (any_eq_true.mpr ⟨(m, canon hd.layout u), hmem, ?_⟩)
  simp only [Bool.and_eq_true, decide_eq_true_eq, RowValues.matches, Bool.not_eq_true']
  exact ⟨hne, (parseCell_of_typedAt hr).1, htext⟩

variable (hens : db.pool.Ensures (UniqueIn o c type))
include hens

theorem UniqueOn.write (ht : t ∈ db.txns) (hl : lookupTable db.store name = some (i, slot, hd))
    (hser : (serializeRow hd.layout values).isSome) (hcount : values.count = hd.layout.columnCount)
    (hchecked : rowConstraintCheckWrite env db t.txnId uid slot.objectId values exclude = .ok)
    (hguard : slot.objectId = o → db.DuplicatesSeen env table o c type t.txnId uid exclude values)
    (hexclude : ∀ m, m ≠ k → ∀ S row, db.pool.world S m = some row → m ≠ exclude)
    (heff : Effects t.txnId db [(k, some (slot.objectId, canon hd.layout values))] db') :
    db'.pool.Ensures (UniqueIn o c type) := by
  refine hens.step h.pool heff.step_of_single fun t' k' v heq S hS => ?_
  cases heq
  refine (hens S).update fun r x hrow hx m r' hmk hm => ?_
  obtain ⟨hid, rfl⟩ := Prod.mk.inj (Option.some.inj hrow)
  obtain ⟨i', slot', hd', col, hl', hid', hcol, rfl⟩ := hu.column
  obtain ⟨rfl, rfl, rfl⟩ := lookupTable_eq_of_objectId h.distinct hl hl' (hid'.trans hid.symm)
  rw [typedAt_canon hcol hfloat hser] at hx
  have hlt : c < hd'.layout.columnCount := (List.getElem?_eq_some_iff.mp hcol).1
  exact hu.no_clash h hfloat ht (by rw [hcount]; exact hlt) (hid ▸ hchecked) (hguard hid) hS hm
    (hexclude m hmk S _ hm) hx

/-- Deletes and their cascades bring no new values. -/
theorem UniqueOn.cascadeStep (hs : CascadeStep txn db db') :
    db'.pool.Ensures (UniqueIn o c type) := by
  cases hs with
  | quiet heff => rwa [heff.pool_of_nil]
  | erase k heff =>
    refine hens.step h.pool heff.step_of_single fun t' k' v heq S _ => ?_
    cases heq
    exact (hens S).update fun r x hrow => by cases hrow
  | null k n i name slot hd values hl hsees hser heff =>
    refine hens.step h.pool heff.step_of_single fun t' k' v heq S hS => ?_
    cases heq
    refine (hens S).update fun r x hrow hx m r' hmk hm => ?_
    obtain ⟨hid, rfl⟩ := Prod.mk.inj (Option.some.inj hrow)
    obtain ⟨i', slot', hd', col, hl', hid', hcol, rfl⟩ := hu.column
    obtain ⟨rfl, rfl, rfl⟩ := lookupTable_eq_of_objectId h.distinct hl hl' (hid'.trans hid.symm)
    -- the row held the value before, in the same world
    have hold : db.pool.world S k = some (o, values) := by
      rwa [h.pool.world_writer heff.step_of_single hS, ← hid]
    have hlt : c < 16 := lt_of_lt_of_le (List.getElem?_eq_some_iff.mp hcol).1 hd'.layout.columns_le
    rw [typedAt_canon hcol hfloat hser] at hx
    exact hens S k m values r' x (Ne.symm hmk) hold hm (typedAt_setNull hlt hx)

lemma UniqueOn.cascade (hc : Cascade txn db db') : db'.pool.Ensures (UniqueIn o c type) := by
  induction hc with
  | refl => exact hens
  | @tail db1 db2 hc hs ih =>
    have hc : Cascade txn db db1 := hc
    have hframe := hc.frame ⟨used, h⟩
    obtain ⟨used1, h1⟩ := hc.good ⟨used, h⟩
    exact (hu.frame hframe.catalog hframe.constraints h.distinct).cascadeStep h1 hfloat ih hs

theorem UniqueOn.step (hlegal : db.Legal a) (hguard : UniqueGuard table o c type db a) :
    (db.step a).pool.Ensures (UniqueIn o c type) := by
  obtain ⟨env, call⟩ := a
  obtain ⟨es, hs⟩ := (h.stepped hlegal).1
  have hworld : ∀ m S row, db.pool.world S m = some row → m ≠ 0 := by
    intro m S row hm
    obtain ⟨v, hv, hact, rfl, -⟩ := h.world_version hm
    exact Nat.ne_of_gt (h.logical v hv hact).1
  cases call with
  | begin | commit | rollback => exact hs.ensures h rfl hens
  | insert txn uid name values =>
    change (mvccRowInsert env db txn uid name values).1.pool.Ensures _
    rcases mvccRowInsert_spec h Prod.mk.eta.symm with ⟨-, -, heff⟩ | ⟨-, -, slot, hd, hok⟩
    · rw [heff.pool_of_nil]
      exact hens
    · obtain ⟨i, hl⟩ := hok.lookup
      obtain ⟨t, ht, rfl⟩ := hok.live
      refine hu.write h hfloat hens ht hl hok.accepted hok.count hok.checked (fun hid => ?_)
        (fun m _ S row hm => hworld m S row hm) hok.effects
      exact hguard (by rw [hl, Option.map_some, hid])
  | update txn uid name id values =>
    change (mvccRowUpdate env db txn uid name id values).1.pool.Ensures _
    have hr := (Prod.mk.eta (p := mvccRowUpdate env db txn uid name id values)).symm
    rcases mvccRowUpdate_spec h hlegal hr with ⟨-, heff⟩ | ⟨-, t, v, slot, hd, rfl, hok⟩
    · rw [heff.pool_of_nil]
      exact hens
    · obtain ⟨i, hl⟩ := hok.lookup
      refine hu.write h hfloat hens hok.txn hl hok.accepted hok.count hok.checked (fun hid => ?_)
        (fun m hm _ _ _ => hm) hok.effects
      exact hguard (by rw [hl, Option.map_some, hid])
  | delete =>
    exact hu.cascade h hfloat hens (mvccRowDelete_spec h Prod.mk.eta.symm).1

end

end Unique

section Runs

variable {db db₀ : Db} {table column : String} {o c : ℕ} {type : FieldType} {acts : List Act}

lemma mem_rcPlace : d ∈ rcPlace d ds := by
  induction ds with
  | nil => exact mem_singleton.mpr rfl
  | cons e ds ih => grind [rcPlace]

lemma rowConstraintAddUnique_spec (hadd : rowConstraintAddUnique db table column = (db₀, .ok))
    (hl : lookupTable db.store table = some (i, slot, hdr))
    (hc : rcFindColumnIndex hdr.layout column = some c)
    (hcol : hdr.layout.columns[c]? = some col) : db₀ = { db with constraints := db₀.constraints } ∧
      UniqueOn db₀ table slot.objectId c col.type := by
  rw [rowConstraintAddUnique, rcAdd, hl] at hadd
  simp only [hc] at hadd
  split_ifs at hadd
  · cases congrArg Prod.snd hadd
  obtain rfl : _ = db₀ := congrArg Prod.fst hadd
  exact ⟨rfl, ⟨i, slot, hdr, col, hl, rfl, hcol, rfl⟩,
    ⟨true, .unique, slot.objectId, table, c, Text.empty, Text.empty, 0, "", 0, .restrict⟩,
    mem_rcPlace, rfl, rfl, rfl, rfl, rfl⟩

lemma Db.Inv.constraints (h : db.Inv used) (cs : List RowConstraintDef) :
    Db.Inv { db with constraints := cs } used := by
  refine ⟨h.heap, h.distinct, h.placed, h.physical, fun v hv hact => ?_, h.txn_ids, h.txn_range,
    h.logical, h.next_pos, h.same_table, h.pool⟩
  have hst := h.stamped v hv hact
  exact ⟨hst.xmin_done, hst.xmax_done, hst.xmin_lt, hst.xmax_lt⟩

/-- No two rows of the table share a value, whichever of their versions stay. -/
def Db.NoDuplicates (db : Db) (o c : ℕ) (type : FieldType) : Prop :=
  ∀ v ∈ db.versions, ∀ w ∈ db.versions, v.active = true → w.active = true → v.tableObjectId = o →
    w.tableObjectId = o → v.xmaxCommitted = false → w.xmaxCommitted = false →
    v.logicalId ≠ w.logicalId → ∀ x ∈ typedAt type (v.cell db.store).val.2 c,
    typedAt type (w.cell db.store).val.2 c ≠ some x

lemma Db.NoDuplicates.ensures (hdup : db.NoDuplicates o c type)
    (h : db.Inv used) : db.pool.Ensures (UniqueIn o c type) := by
  intro S k m r r' x hkm hk hm hx
  obtain ⟨v, hv, hvact, hvlog, hval, hvdone, -⟩ := h.world_version hk
  obtain ⟨w, hw, hwact, hwlog, hwal, hwdone, -⟩ := h.world_version hm
  have hne := hdup v hv w hw hvact hwact (congrArg Prod.fst hval) (congrArg Prod.fst hwal) hvdone
    hwdone (by rw [hvlog, hwlog]; exact hkm) x (by rw [hval]; exact hx)
  rwa [hwal] at hne

lemma UniqueOn.after (hu : UniqueOn db table o c type) (hgood : db.Good) (hfloat : type ≠ .float)
    (hlegal : Always Db.step Db.Legal db acts)
    (hguard : Always Db.step (UniqueGuard table o c type) db acts)
    (hens : db.pool.Ensures (UniqueIn o c type)) :
    (run Db.step db acts).Good ∧ UniqueOn (run Db.step db acts) table o c type ∧
      (run Db.step db acts).pool.Ensures (UniqueIn o c type) := by
  refine run_induction
    (I := fun db => db.Good ∧ UniqueOn db table o c type ∧ db.pool.Ensures (UniqueIn o c type))
    ⟨hgood, hu, hens⟩ (fun db a hI hstep => ?_) (hlegal.and hguard)
  obtain ⟨⟨used, h⟩, hu, hens⟩ := hI
  obtain ⟨es, hs⟩ := (h.stepped hstep.1).1
  exact ⟨hs.good, hu.frame hs.catalog hs.constraints h.distinct,
    hu.step h hfloat hens hstep.1 hstep.2⟩

/-- UNIQUE as an invariant of committed data.  Register the constraint in any reachable
state whose rows hold no duplicates, then run any interleaving of calls in which every
insert and update of the table sees the duplicates of what it writes: no two rows a new
transaction scans hold equal values in the column. -/
theorem scan_unique_of_guarded (hreached : Reached db)
    (hadd : rowConstraintAddUnique db table column = (db₀, .ok)) {i : ℕ} {slot : CatalogSlot}
    {hdr : RowTableHeader} (hl : lookupTable db.store table = some (i, slot, hdr))
    (hc : rcFindColumnIndex hdr.layout column = some c) {col : Column}
    (hcol : hdr.layout.columns[c]? = some col) (hfloat : col.type ≠ .float)
    (hdup : db₀.NoDuplicates slot.objectId c col.type)
    (hlegal : Always Db.step Db.Legal db₀ acts)
    (hguard : Always Db.step (UniqueGuard table slot.objectId c col.type) db₀ acts)
    {db' : Db} {t : ℕ}
    (hb : mvccBegin (run Db.step db₀ acts) = (db', t)) (ht : t ≠ 0) (env : Env) (uid : ℕ)
    {k m : ℕ} {r r' : RowValues} (hk : (k, r) ∈ mvccTableScan env db' t uid table)
    (hm : (m, r') ∈ mvccTableScan env db' t uid table) (hkm : k ≠ m) {x : TypedValue}
    (hx : typedAt col.type r c = some x) : typedAt col.type r' c ≠ some x := by
  obtain ⟨⟨used, h⟩, -⟩ := hreached.good
  obtain ⟨heq, hu⟩ := rowConstraintAddUnique_spec hadd hl hc hcol
  have h₀ : db₀.Inv used := by
    rw [heq]
    exact h.constraints _
  obtain ⟨⟨used', h'⟩, hu', hens⟩ := hu.after ⟨used, h₀⟩ hfloat hlegal hguard (hdup.ensures h₀)
  obtain ⟨-, hstore, -, hmem⟩ := begin_eq hb ht
  obtain ⟨i', slot', hd', -, hl', hid', -⟩ := hu'.column
  have hscan : ∀ {j : ℕ} {row : RowValues}, (j, row) ∈ mvccTableScan env db' t uid table →
      (run Db.step db₀ acts).pool.world ∅ j = some (slot.objectId, row) := by
    intro j row hj
    have hacc : env.access uid table .read = true := by grind [mvccTableScan]
    rw [← h'.begin_sees hb ht, ← hid']
    exact ((begin_inv h' hb ht).mem_scan hmem (hstore ▸ hl') hacc).mp hj
  exact hens ∅ k m r r' x hkm (hscan hk) (hscan hm) hx

end Runs

section Sample

set_option maxRecDepth 8000

instance (db : Db) (env : Env) (table : String) (o c : ℕ) (type : FieldType) (txn uid exclude : ℕ)
    (values : RowValues) :
    Decidable (db.DuplicatesSeen env table o c type txn uid exclude values) :=
  inferInstanceAs (Decidable (_ → _))

instance (table : String) (o c : ℕ) (type : FieldType) :
    (db : Db) → (a : Act) → Decidable (UniqueGuard table o c type db a)
  | _, (_, .insert ..) => inferInstanceAs (Decidable (_ → Db.DuplicatesSeen ..))
  | _, (_, .update ..) => inferInstanceAs (Decidable (_ → Db.DuplicatesSeen ..))
  | _, (_, .begin) => .isTrue trivial
  | _, (_, .delete ..) => .isTrue trivial
  | _, (_, .commit _) => .isTrue trivial
  | _, (_, .rollback ..) => .isTrue trivial

instance (db : Db) (o c : ℕ) (type : FieldType) : Decidable (db.NoDuplicates o c type) :=
  inferInstanceAs (Decidable (∀ v ∈ db.versions, ∀ w ∈ db.versions, _))

/-- The number column of the one table is UNIQUE. -/
def uniqueDb : Db := (rowConstraintAddUnique roomyDb "t" "v").1

/-- Two transactions one after the other, the second replaces its row. -/
def insertInTurn : List Act :=
  [.begin, .insert 1 9 "t" (uintRow [53]), .commit 1, .begin, .insert 2 9 "t" (uintRow [54]),
    .update 2 9 "t" 2 (uintRow [55]), .commit 2].map (openEnv, ·)

theorem insertInTurn_unique : typedAt .uint64 (uintRow [53]) 0 = some (.uint64 5) ∧
      typedAt .uint64 (uintRow [55]) 0 ≠ some (.uint64 5) := by
  have hadd : (rowConstraintAddUnique roomyDb "t" "v").2 = .ok := by decide
  have hsome : (lookupTable roomyDb.store "t").isSome = true := by decide
  obtain ⟨⟨i, slot, hdr⟩, hl⟩ := Option.isSome_iff_exists.mp hsome
  have hid : (lookupTable roomyDb.store "t").map (·.2.1.objectId) = some 7 := by decide
  have hcolumns : (lookupTable roomyDb.store "t").map (·.2.2.layout.columns) =
      some [⟨"v", .uint64, 3⟩] := by decide
  rw [hl, Option.map_some, Option.some.injEq] at hid hcolumns
  have hc : rcFindColumnIndex hdr.layout "v" = some 0 := by
    rw [rcFindColumnIndex, hcolumns]
    decide
  have hcol : hdr.layout.columns[0]? = some ⟨"v", .uint64, 3⟩ := by
    rw [hcolumns]
    rfl
  have hdup : uniqueDb.NoDuplicates 7 0 .uint64 := by decide
  have hguard : Always Db.step (UniqueGuard "t" 7 0 .uint64) uniqueDb insertInTurn := by decide
  have ht : (mvccBegin (run Db.step uniqueDb insertInTurn)).2 = 3 := by decide
  have hscan : mvccTableScan openEnv (mvccBegin (run Db.step uniqueDb insertInTurn)).1 3 9 "t" =
      [(1, uintRow [53]), (2, uintRow [55])] := by decide
  exact ⟨by decide, scan_unique_of_guarded roomyDb_reached (Prod.ext rfl hadd) hl hc hcol
    (by decide) (hid ▸ hdup) (by decide) (hid ▸ hguard) (Prod.ext rfl ht) (by decide) openEnv 9
    (hscan ▸ mem_cons_self ..) (hscan ▸ mem_cons_of_mem _ (mem_cons_self ..)) (by decide)
    (by decide)⟩

/-- Two transactions side by side. -/
def insertSideBySide : List Act :=
  [.begin, .begin, .insert 1 9 "t" (uintRow [53]), .insert 2 9 "t" (uintRow [53]), .commit 1,
    .commit 2].map (openEnv, ·)

def insertTwoSpellings : List Act :=
  [.begin, .insert 1 9 "t" (uintRow [53]), .insert 1 9 "t" (uintRow [48, 53]), .commit 1].map
    (openEnv, ·)

/-- Duplicates get in from a concurrent transaction, and from another spelling. -/
theorem duplicates_committed : (rowConstraintAddUnique roomyDb "t" "v").2 = .ok ∧
    mvccTableScan openEnv (mvccBegin (run Db.step uniqueDb insertSideBySide)).1 3 9 "t" =
      [(1, uintRow [53]), (2, uintRow [53])] ∧
    mvccTableScan openEnv (mvccBegin (run Db.step uniqueDb insertTwoSpellings)).1 2 9 "t" =
      [(1, uintRow [53]), (2, uintRow [53])] := by
  refine ⟨?_, ?_, ?_⟩
  · decide
  · decide
  · decide

end Sample

end AeroSLS.Mvcc
