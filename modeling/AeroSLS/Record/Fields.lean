import AeroSLS.Record.Locks

namespace AeroSLS.Record

open Machine Function List

def recordValLen : ℕ := 256
def recordMaxFields : ℕ := 32
def objectNameLen : ℕ := 64

/-- A C string that fits an array of `n` bytes. -/
abbrev CString (n : ℕ) := {k : List UInt8 // 0 ∉ k ∧ k.length < n}

/-- The array starts with these bytes and a zero, as `cat_streq` and `cat_name_eq` test it. -/
def Spells (b : ℕ → UInt8) (k : List UInt8) : Prop := ∀ i ≤ k.length, b i = k.getD i 0

instance (b : ℕ → UInt8) (k : List UInt8) : Decidable (Spells b k) :=
  inferInstanceAs (Decidable (∀ i ≤ k.length, _))

/-- What stood behind the end of the string stays in the array. -/
def catStrncpy {n : ℕ} (b : ℕ → UInt8) (k : CString n) (i : ℕ) : UInt8 :=
  if i ≤ k.1.length then k.1.getD i 0 else b i

structure RecordField where
  key : ℕ → UInt8
  value : CString recordValLen
  active : Bool

structure Object where
  name : CString objectNameLen
  named : name.1 ≠ []
  partitionId : ℕ
  systemMetadata : Bool
  usesRowstore : Bool
  appendOnly : Bool
  fields : ℕ → RecordField
  fieldCount : ℕ

/-- The first of the slots before `n` with a live field of that key. -/
def Object.scan (o : Object) (n : ℕ) (key : List UInt8) : Option ℕ :=
  (range n).find? fun i => (o.fields i).active ∧ Spells (o.fields i).key key

def Object.put (o : Object) (i : ℕ) (f : RecordField) (n : ℕ) : Object :=
  { o with fields := update o.fields i f, fieldCount := n }

section calls

variable (o : Object) (key : CString recordKeyLen) (value : CString recordValLen) (refused : Bool)

/-- An error is the code returned; `refused` is what the constraint check says. -/
def sysSlsInsert : Except ℕ Object :=
  if o.usesRowstore then .error 4
  else if recordMaxFields ≤ o.fieldCount then .error 1
  else if o.scan recordMaxFields key.1 ≠ none then .error 1
  else
    match (range recordMaxFields).find? fun i => !(o.fields i).active with
    | none => .error 1
    | some i =>
      if refused then .error 3
      else .ok (o.put i ⟨catStrncpy (o.fields i).key key, value, true⟩ (o.fieldCount + 1))

def sysSlsUpdate : Except ℕ Object :=
  if o.usesRowstore then .error 4
  else
    match o.scan recordMaxFields key.1 with
    | none => .error 1
    | some i =>
      if refused then .error 3 else .ok (o.put i { o.fields i with value := value } o.fieldCount)

def sysSlsDelete : Except ℕ Object :=
  if o.usesRowstore then .error 4
  else if o.appendOnly then .error 1
  else
    match o.scan recordMaxFields key.1 with
    | none => .error 1
    | some i => .ok (o.put i { o.fields i with active := false } (o.fieldCount - 1))

end calls

inductive CatReply
  | ok (key value : List UInt8)
  | shape
  | noent
  | perm
  | type
  deriving DecidableEq

def catRead (o : Object) (partition : ℕ) (name key : List UInt8) : CatReply :=
  if name = [] ∨ objectNameLen ≤ name.length ∨ recordKeyLen ≤ key.length then .shape
  else if o.partitionId ≠ partition ∨ o.name.1 ≠ name then .noent
  else if o.systemMetadata then .perm
  else if o.usesRowstore then .type
  else if key = [] then .noent
  else
    match o.scan (min recordMaxFields o.fieldCount) key with
    | none => .noent
    | some i => .ok key (o.fields i).value.1

/-- The table, and the values the callers know of: inserted and not deleted since. -/
structure RecordRun where
  object : Object
  live : List UInt8 → Option (List UInt8)

inductive RecordCall
  | insert (value : CString recordValLen) (refused : Bool)
  | update (value : CString recordValLen) (refused : Bool)
  | delete

def RecordRun.answer (s : RecordRun) (key : List UInt8) (value : Option (List UInt8)) :
    Except ℕ Object → RecordRun
  | .error _ => s
  | .ok o => ⟨o, update s.live key value⟩

def RecordRun.step (s : RecordRun) (c : CString recordKeyLen × RecordCall) : RecordRun :=
  match c.2 with
  | .insert v refused => s.answer c.1.1 (some v.1) (sysSlsInsert s.object c.1 v refused)
  | .update v refused => s.answer c.1.1 (some v.1) (sysSlsUpdate s.object c.1 v refused)
  | .delete => s.answer c.1.1 none (sysSlsDelete s.object c.1)

def Object.Holds (o : Object) (i : ℕ) (key : List UInt8) : Prop :=
  i < recordMaxFields ∧ (o.fields i).active ∧ Spells (o.fields i).key key

lemma Object.scan_some {o : Object} (h : o.scan n key = some i) :
    i < n ∧ (o.fields i).active ∧ Spells (o.fields i).key key :=
  ⟨mem_range.1 (mem_of_find?_eq_some h), by simpa using find?_some h⟩

lemma Object.scan_none {o : Object} (h : o.scan n key = none) (hi : o.Holds i key) : ¬i < n := by
  intro hlt
  simpa [hi.2] using find?_eq_none.1 h i (mem_range.2 hlt)

/-- An array spells one C string. -/
lemma Spells.unique (hk : 0 ∉ k) (hk' : 0 ∉ k') (h : Spells b k) (h' : Spells b k') : k = k' := by
  -- the zero behind the shorter one would be a byte of the longer one
  have hlen : ∀ {k k' : List UInt8}, 0 ∉ k' → Spells b k → Spells b k' → k'.length ≤ k.length := by
    intro k k' hk' h h'
    have := h k.length
    have := h' k.length
    grind
  have := hlen hk h' h
  have := hlen hk' h h'
  refine ext_getElem (by omega) fun i hi hi' => ?_
  have := h i
  have := h' i
  grind

/-- The live fields are the values the callers know of, one for each key. -/
structure RecordRun.Kept (o : Object) (s : RecordRun) : Prop where
  entry : ∃ fields n, s.object = { o with fields := fields, fieldCount := n }
  live : ∀ k v, s.live k = some v ↔
    0 ∉ k ∧ ∃ i, s.object.Holds i k ∧ (s.object.fields i).value.1 = v
  once : ∀ i j k, 0 ∉ k → s.object.Holds i k → s.object.Holds j k → i = j

section kept

variable {s : RecordRun} (h : s.Kept o)

include h

lemma RecordRun.Kept.put (hi : i < recordMaxFields) (hk : 0 ∉ k)
    (hone : ∀ j, s.object.Holds j k → j = i) (hold : ∀ k', 0 ∉ k' → s.object.Holds i k' → k' = k)
    (hnew : f.active → Spells f.key k) (hv : v = if f.active then some f.value.1 else none) :
    RecordRun.Kept o ⟨s.object.put i f n, update s.live k v⟩ := by
  have hholds : ∀ j k', 0 ∉ k' → ((s.object.put i f n).Holds j k' ↔
      if j = i then f.active ∧ k' = k else s.object.Holds j k') := by
    intro j k' hk'
    unfold Object.Holds Object.put
    grind [Spells.unique]
  obtain ⟨fields, m, he⟩ := h.entry
  refine ⟨⟨_, n, by rw [he]; rfl⟩, fun k' v' => ?_, fun a b k' hk' ha hb => ?_⟩
  · by_cases hkk : k' = k
    · subst hkk
      simp only [hholds _ k' hk, update_self, hv]
      constructor
      · intro hsome
        exact ⟨hk, i, by grind, by simp [Object.put]; grind⟩
      · rintro ⟨-, j, hj, rfl⟩
        have := hone j
        simp only [Object.put]
        grind
    · dsimp only
      rw [update_of_ne hkk, h.live k' v']
      refine and_congr_right fun hk' => exists_congr fun j => ?_
      rw [hholds j k' hk']
      have := hold k' hk'
      simp only [Object.put]
      grind
  · grind [h.once a b k' hk']

lemma RecordRun.Kept.change (hk : 0 ∉ k) (hscan : s.object.scan recordMaxFields k = some i)
    (hkey : f.key = (s.object.fields i).key) (hv : v = if f.active then some f.value.1 else none) :
    RecordRun.Kept o ⟨s.object.put i f n, update s.live k v⟩ := by
  have hi : s.object.Holds i k := Object.scan_some hscan
  refine h.put hi.1 hk (fun j hj => h.once j i k hk hj hi) ?_ (fun _ => hkey ▸ hi.2.2) hv
  exact fun k' hk' hi' => hi'.2.2.unique hk' hk hi.2.2

lemma RecordRun.Kept.answer (hok : ∀ o', r = .ok o' → Kept o ⟨o', update s.live k v⟩) :
    (s.answer k v r).Kept o := by
  cases r with
  | error => exact h
  | ok o' => exact hok o' rfl

lemma RecordRun.Kept.step (c : CString recordKeyLen × RecordCall) : (s.step c).Kept o := by
  obtain ⟨k, c⟩ := c
  cases c with
  | insert v refused =>
    refine h.answer fun o' hr => ?_
    unfold sysSlsInsert at hr
    split_ifs at hr with hrow hfull hdup <;> split at hr <;> cases hr
    rename_i i hfree
    have hdead := find?_some hfree
    refine h.put (mem_range.1 (mem_of_find?_eq_some hfree)) k.2.1 ?_ ?_
      (fun _ j hj => if_pos hj) rfl
    · exact fun j hj => absurd hj.1 (Object.scan_none (not_not.1 hdup) hj)
    · exact fun k' _ hi => by simp [hi.2.1] at hdead
  | update v refused =>
    refine h.answer fun o' hr => ?_
    unfold sysSlsUpdate at hr
    split_ifs at hr <;> split at hr <;> cases hr
    rename_i i hscan
    exact h.change k.2.1 hscan rfl (if_pos (Object.scan_some hscan).2.1).symm
  | delete =>
    refine h.answer fun o' hr => ?_
    unfold sysSlsDelete at hr
    split_ifs at hr
    split at hr <;> cases hr
    exact h.change k.2.1 ‹_› rfl rfl

end kept

/-- After any direct calls on an empty record table the reader is right about a key exactly
when the slots with a live field of that key are before the counter if the key is a C string,
and behind it if the key has a zero byte. -/
theorem catRead_right_iff (o : Object) (hempty : ∀ i, (o.fields i).active = false)
    (hrow : o.usesRowstore = false) (hmeta : o.systemMetadata = false)
    (calls : List (CString recordKeyLen × RecordCall))
    (key : List UInt8) (hkey : key ≠ []) (hlen : key.length < recordKeyLen) :
    let s := run RecordRun.step ⟨o, fun _ => none⟩ calls
    catRead s.object o.partitionId o.name.1 key = (match s.live key with
      | some v => .ok key v
      | none => .noent) ↔
      ∀ i, s.object.Holds i key → (i < s.object.fieldCount ↔ 0 ∉ key) := by
  intro s
  have h : s.Kept o := by
    refine run_induction (I := RecordRun.Kept o) (P := fun _ _ => True) ⟨⟨_, _, rfl⟩, ?_, ?_⟩
      (fun t c ht _ => ht.step c) (always_of_forall fun _ _ _ => trivial)
    · simp [Object.Holds, hempty]
    · exact fun i j k _ hi => by simp [Object.Holds, hempty] at hi
  have hread : catRead s.object o.partitionId o.name.1 key =
      match s.object.scan (min recordMaxFields s.object.fieldCount) key with
      | none => .noent
      | some i => .ok key (s.object.fields i).value.1 := by
    obtain ⟨fields, n, he⟩ := h.entry
    have hname := Nat.not_le.2 o.name.2.2
    simp [catRead, he, hrow, hmeta, hkey, o.named, hname, Nat.not_le.2 hlen]
  rw [hread]
  have hlive := fun v => (h.live key v).1
  have hvalue : ∀ i, s.object.Holds i key → 0 ∉ key →
      s.live key = some (s.object.fields i).value.1 := fun i hi hk => (h.live ..).2 ⟨hk, i, hi, rfl⟩
  cases hscan : s.object.scan (min recordMaxFields s.object.fieldCount) key with
  | none =>
    have hbehind : ∀ i, s.object.Holds i key → ¬i < s.object.fieldCount := fun i hi hlt =>
      Object.scan_none hscan hi (Nat.lt_min.2 ⟨hi.1, hlt⟩)
    cases hv : s.live key with
    | none | some => grind
  | some i =>
    obtain ⟨hlt, hact⟩ := Object.scan_some hscan
    have hi : s.object.Holds i key := ⟨by omega, hact⟩
    have honce := fun hk j => h.once j i key hk
    cases hv : s.live key with
    | none | some => grind

/-- An empty record table of partition 1. -/
def emptyTable : Object :=
  ⟨⟨[116], by decide⟩, by decide, 1, false, false, false,
    fun _ => ⟨fun _ => 0, ⟨[], by decide⟩, false⟩, 0⟩

theorem catRead_right_inserted :
    let calls := [(⟨[97], by decide⟩, .insert ⟨[49], by decide⟩ false),
      (⟨[98], by decide⟩, .insert ⟨[50], by decide⟩ false), (⟨[98], by decide⟩, .delete)]
    catRead (run RecordRun.step ⟨emptyTable, fun _ => none⟩ calls).object 1 [116] [97] =
      .ok [97] [49] := by
  intro calls
  refine (catRead_right_iff emptyTable (fun _ => rfl) rfl rfl calls [97] (by decide)
    (by decide)).2 ?_
  rintro i ⟨hi, hact⟩
  revert i
  decide

/-- Of two fields the first is deleted, and the second is beyond the counter. -/
theorem catRead_misses_field :
    let s := run RecordRun.step ⟨emptyTable, fun _ => none⟩
      [(⟨[97], by decide⟩, .insert ⟨[49], by decide⟩ false),
        (⟨[98], by decide⟩, .insert ⟨[50], by decide⟩ false), (⟨[97], by decide⟩, .delete)]
    s.live [98] = some [50] ∧ catRead s.object 1 [116] [98] = .noent := by decide

end AeroSLS.Record
