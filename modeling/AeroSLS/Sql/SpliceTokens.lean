import AeroSLS.Sql.Splice

namespace AeroSLS.Sql

open Rowstore List LexState

variable {layout : List Column} {text : List UInt8} {row row' : RowValues}
  {st st' : LexState} {held ident : Bool} {ps : List Piece} {col : ℕ}

/-- The tokens of the spliced text, each with whether it holds a byte of a value. -/
def markedTokens (layout : List Column) (row : RowValues) :
    LexState → Bool → List Piece → List (SqlToken × Bool)
  | st, held, [] => st.pending.map (·, held)
  | st, held, .byte b :: ps =>
    (if (st.goesOn b).isSome then [] else st.pending.map (·, held)) ++
      markedTokens layout row (st.step b) (held && (st.goesOn b).isSome) ps
  | st, held, .ref name :: ps =>
    st.endedBy held (spliced layout row (refColumn layout name)) ++
      markedTokens layout row (st.after (spliced layout row (refColumn layout name))) true ps

lemma markedTokens_fst :
    (markedTokens layout row st held ps).map Prod.fst = st.tokens (render layout row ps) := by
  induction ps generalizing st held with
  | nil => exact pending_fst
  | cons p ps ih =>
    cases p with
    | byte b =>
      have hbyte : st.tokens (b :: render layout row ps) =
          st.ended [b] ++ (st.step b).tokens (render layout row ps) := tokens_append [b] _
      rw [markedTokens, render, map_append, ih, hbyte, ended, ended, append_nil]
      split_ifs
      · rfl
      · rw [pending_fst]
    | ref name => rw [markedTokens, render, map_append, ih, endedBy_fst, tokens_append]

/-- The property holds at each reference, of the state before it and its column. -/
def AtRefs (layout : List Column) (row : RowValues) (P : LexState → ℕ → Prop) :
    LexState → List Piece → Prop
  | _, [] => True
  | st, .byte b :: ps => AtRefs layout row P (st.step b) ps
  | st, .ref name :: ps => P st (refColumn layout name) ∧
      AtRefs layout row P (st.after (spliced layout row (refColumn layout name))) ps

lemma AtRefs.of_forall {P : α → LexState → ℕ → Prop} (h : ∀ x, AtRefs layout row (P x) st ps) :
    AtRefs layout row (fun st col => ∀ x, P x st col) st ps := by
  induction ps generalizing st with
  | nil => trivial
  | cons p ps ih =>
    cases p with
    | byte b => exact ih h
    | ref name => exact ⟨fun x => (h x).1, ih fun x => (h x).2⟩

lemma AtRefs.imp₂ {P Q R : LexState → ℕ → Prop} (hP : AtRefs layout row P st ps)
    (hQ : AtRefs layout row Q st ps) (h : ∀ st col, P st col → Q st col → R st col) :
    AtRefs layout row R st ps := by
  induction ps generalizing st with
  | nil => trivial
  | cons p ps ih =>
    cases p with
    | byte b => exact ih hP hQ
    | ref name => exact ⟨h _ _ hP.1 hQ.1, ih hP.2 hQ.2⟩

/-- Every value is read as one literal, or as a part of one. -/
def ApartAt (layout : List Column) (row : RowValues) : LexState → List Piece → Prop :=
  AtRefs layout row fun st col => Apart (columnType layout col) st (row.text col).1

def Holds (layout : List Column) (row : RowValues) (ps : List Piece) : Prop :=
  ∀ name ∈ refNames ps, Stored (columnType layout (refColumn layout name))
    (row.text (refColumn layout name)).1

/-- The references behind the state stand away from names. -/
structure Placed (st : LexState) (ident : Bool) (ps : List Piece) : Prop where
  spaced : Spaced ident ps
  settled : ident = false → st.settled

lemma Placed.byte (h : Placed st ident (.byte b :: ps)) : Placed (st.step b) (charIsIdent b) ps :=
  ⟨h.spaced, settled_step⟩

lemma Placed.ref (h : Placed st ident (.ref name :: ps)) : Placed st' true ps :=
  ⟨h.spaced.2.2, nofun⟩

lemma Placed.settled_ref (h : Placed st ident (.ref name :: ps)) : st.settled :=
  h.settled h.spaced.1

lemma LexState.pending_isLiteral (h : st.inLiteral) : ∀ t ∈ st.pending, t.isLiteral := by
  cases st with
  | gap | symbol | pair => cases h
  | word w =>
    rcases of_decide_eq_true h with rfl | rfl <;> decide +kernel
  | int | frac | opened | quoted => simp [pending, SqlToken.isLiteral]

lemma LexState.pending_held (hlit : held → st.inLiteral) :
    ∀ t ∈ st.pending.map (·, held), t.2 → t.1.isLiteral := by
  intro t ht hheld
  obtain ⟨token, hmem, rfl⟩ := mem_map.1 ht
  exact pending_isLiteral (hlit hheld) token hmem

lemma LexState.inLiteral_step (h : st.inLiteral) (hword : st.isWord → charIsIdent b = false)
    (hon : (st.goesOn b).isSome) : (st.step b).inLiteral ∧ (st.step b).isWord = false := by
  cases st with
  | gap | symbol | pair => cases h
  | word w => simp [goesOn, hword rfl] at hon
  | int | frac | opened | quoted => grind [goesOn, step, inLiteral, isWord]

lemma LexState.inLiteral_held (hlit : held → st.inLiteral)
    (hword : held → st.isWord → charIsIdent b = false) :
    (held && (st.goesOn b).isSome) → (st.step b).inLiteral ∧ (st.step b).isWord = false := by
  intro hheld
  obtain ⟨hheld, hon⟩ := Bool.and_eq_true_iff.1 hheld
  exact inLiteral_step (hlit hheld) (hword hheld) hon

theorem tokens_literal (hp : Placed st ident ps) (hr : Holds layout row ps)
    (hlit : held → st.inLiteral) (hword : held → st.isWord → headIdent ps = false)
    (hat : ApartAt layout row st ps) :
    ∀ t ∈ markedTokens layout row st held ps, t.2 → t.1.isLiteral := by
  induction ps generalizing st held ident with
  | nil => exact pending_held hlit
  | cons p ps ih =>
    intro t ht
    cases p with
    | byte b =>
      rcases mem_append.1 ht with ht | ht
      · split_ifs at ht
        · cases ht
        · exact pending_held hlit t ht
      · have hstep := inLiteral_held hlit hword
        exact ih hp.byte hr (fun hheld => (hstep hheld).1)
          (fun hheld hw => nomatch (hstep hheld).2.symm.trans hw) hat t ht
    | ref name =>
      obtain ⟨hstored, hr⟩ := forall_mem_cons.1 hr
      obtain ⟨st', ⟨hout, rfl⟩, hland⟩ := reads_value held hstored hp.settled_ref hat.1
      rcases mem_append.1 ht with ht | ht
      · rw [spliced, hout] at ht
        split_ifs at ht
        · cases ht
        · exact pending_held hlit t ht
      · exact ih hp.ref hr (fun _ => inLiteral_landing hland) (fun _ _ => hp.spaced.2.1) hat.2 t ht

lemma markedTokens_frac (layout : List Column) (row : RowValues) (hsp : Spaced true ps)
    (hnext : headIdent ps = false) : ∃ rest,
    markedTokens layout row (.frac n) true ps = (⟨.number, tokenText n⟩, true) :: rest := by
  rcases ps with _ | ⟨b | name, ps⟩
  · exact ⟨_, rfl⟩
  · have hnone : (LexState.frac n).goesOn b = none := by
      have hdigit : isDigit b = false := by
        rw [← Bool.not_eq_true]
        intro hd
        cases (charIsIdent_of_isDigit hd).symm.trans hnext
      simp [goesOn, hdigit]
    exact ⟨markedTokens layout row (start b) false ps, by simp [markedTokens, hnone, step, pending]⟩
  · cases hsp.1

lemma spliced_float (h : columnType layout col = .float) :
    spliced layout row col = (row.text col).1 := by
  rw [spliced, h]
  rfl

/-- Behind a minus sign, a number takes it in unless it has one of its own. -/
lemma markedTokens_minus (hsp : Spaced ident (.ref name :: ps))
    (hfloat : columnType layout (refColumn layout name) = .float)
    (hstored : Stored .float (row.text (refColumn layout name)).1) :
    (markedTokens layout row (.symbol minusSign) false (.ref name :: ps)).head?.map Prod.snd =
      some (!isNegative (row.text (refColumn layout name)).1) := by
  obtain ⟨ip, dec, hip, hipd, hdec, hdecd, ⟨hs, hneg⟩ | ⟨hs, hneg⟩⟩ := stored_float hstored
  · have hv := (spliced_float hfloat).trans hs
    obtain ⟨_, h, -⟩ | ⟨-, hout, hafter⟩ | ⟨h, -⟩ :=
      reads_decimal hip hipd hdec hdecd false (rfl : (LexState.symbol minusSign).settled) rfl
    · cases h
    · obtain ⟨rest, hrest⟩ := markedTokens_frac layout row hsp.2.2 hsp.2.1
      rw [markedTokens, hv, hout, hafter, hrest, hneg]
      rfl
    · cases h
  · have hv := (spliced_float hfloat).trans hs
    obtain ⟨hout, -⟩ :=
      reads_negative hip hipd hdec hdecd false (rfl : (LexState.symbol minusSign).settled) rfl
    rw [markedTokens, hv, hout, hneg]
    rfl

/-- The reference stands behind a minus sign, and both rows' numbers have the same sign. -/
def SameSign (layout : List Column) (row row' : RowValues) (st : LexState) (col : ℕ) : Prop :=
  columnType layout col = .float → st = .symbol minusSign →
    isNegative (row.text col).1 = isNegative (row'.text col).1

theorem tokens_same_iff (hp : Placed st ident ps) (hr : Holds layout row ps)
    (hr' : Holds layout row' ps) (h : Agree held st st') (hlit : held → st.inLiteral)
    (hword : held → st.isWord → headIdent ps = false)
    (hat : ApartAt layout row st ps)
    (hat' : ApartAt layout row' st' ps) :
    (markedTokens layout row st held ps).map blur =
        (markedTokens layout row' st' held ps).map blur ↔
      AtRefs layout row (SameSign layout row row') st ps := by
  induction ps generalizing st st' held ident with
  | nil => exact iff_of_true h.pending trivial
  | cons p ps ih =>
    cases p with
    | byte b =>
      obtain ⟨hon, hagree⟩ := h.step hword
      have hstep := inLiteral_held hlit hword
      have hiff := ih hp.byte hr hr' hagree (fun hheld => (hstep hheld).1)
        (fun hheld hw => nomatch (hstep hheld).2.symm.trans hw) hat hat'
      have hprefix : (if (st.goesOn b).isSome then [] else st.pending.map (·, held)).map blur =
          (if (st'.goesOn b).isSome then [] else st'.pending.map (·, held)).map blur := by
        rw [hon]
        split_ifs
        · rfl
        · exact h.pending
      rw [markedTokens, markedTokens, map_append, map_append, hprefix, append_cancel_left_eq, ← hon]
      exact hiff
    | ref name =>
      obtain ⟨hstored, hr⟩ := forall_mem_cons.1 hr
      obtain ⟨hstored', hr'⟩ := forall_mem_cons.1 hr'
      by_cases hsign : SameSign layout row row' st (refColumn layout name)
      · have hset' : st'.settled := h.settled_eq.trans hp.settled_ref
        obtain ⟨_, ⟨hout, rfl⟩, hland⟩ := reads_value held hstored hp.settled_ref hat.1
        obtain ⟨_, ⟨hout', rfl⟩, hland'⟩ := reads_value held hstored' hset' hat'.1
        rw [h.landing_eq] at hland'
        rw [h.joins_eq hat.1 hat'.1 hsign] at hout'
        have hended : (st.endedBy held (spliced layout row (refColumn layout name))).map blur =
            (st'.endedBy held (spliced layout row' (refColumn layout name))).map blur := by
          unfold spliced
          rw [hout, hout']
          split_ifs
          · rfl
          · exact h.pending
        have hagree : Agree true (st.after (spliced layout row (refColumn layout name)))
            (st'.after (spliced layout row' (refColumn layout name))) :=
          ⟨hland.trans hland'.symm, nofun⟩
        have hiff := ih hp.ref hr hr' hagree
          (fun _ => inLiteral_landing hland) (fun _ _ => hp.spaced.2.1) hat.2 hat'.2
        rw [markedTokens, markedTokens, map_append, map_append, hended, append_cancel_left_eq]
        exact hiff.trans (and_iff_right hsign).symm
      · refine iff_of_false (fun heq => ?_) fun hall => hsign hall.1
        obtain ⟨hfloat, hminus, hne⟩ : columnType layout (refColumn layout name) = .float ∧
            st = .symbol minusSign ∧ isNegative (row.text (refColumn layout name)).1 ≠
              isNegative (row'.text (refColumn layout name)).1 := by
          unfold SameSign at hsign
          grind
        subst hminus
        have hheld : held = false := by
          rw [← Bool.not_eq_true]
          exact fun hheld => nomatch hlit hheld
        subst hheld
        rw [hfloat] at hstored hstored'
        have hsnd : Prod.snd ∘ blur = Prod.snd := rfl
        have hmarks := congrArg (fun ts => ts.head?.map Prod.snd) heq
        simp only [head?_map, Option.map_map, hsnd] at hmarks
        rw [markedTokens_minus hp.spaced hfloat hstored, ← h.clean rfl,
          markedTokens_minus hp.spaced hfloat hstored'] at hmarks
        exact hne (Bool.not_inj (Option.some.inj hmarks))

/-- A decimal without a sign behind the point of a number is more than one token. -/
lemma negative_of_literal (hr : Holds layout row ps)
    (hlit : ∀ t ∈ markedTokens layout row st held ps, t.2 → t.1.isLiteral) :
    AtRefs layout row (fun st col => columnType layout col = .float → st.isFrac →
      isNegative (row.text col).1) st ps := by
  induction ps generalizing st held with
  | nil => trivial
  | cons p ps ih =>
    cases p with
    | byte b => exact ih hr fun t ht => hlit t (mem_append_right _ ht)
    | ref name =>
      obtain ⟨hstored, hr⟩ := forall_mem_cons.1 hr
      refine ⟨fun hfloat hfrac => ?_, ih hr fun t ht => hlit t (mem_append_right _ ht)⟩
      obtain ⟨n, rfl⟩ : ∃ n, st = .frac n := by cases st <;> first | exact ⟨_, rfl⟩ | cases hfrac
      rw [hfloat] at hstored
      obtain ⟨ip, dec, hip, hipd, hdec, hdecd, ⟨hs, -⟩ | ⟨-, hneg⟩⟩ := stored_float hstored
      · have hv := (spliced_float hfloat).trans hs
        obtain ⟨_, -, hout, -⟩ | ⟨h, -⟩ | ⟨h, -⟩ :=
          reads_decimal hip hipd hdec hdecd held (rfl : (LexState.frac n).settled) rfl
        · have hdot := hlit (⟨.dot, []⟩, true) (mem_append_left _ (by simp [hv, hout])) rfl
          cases hdot
        · cases h
        · cases h
      · exact hneg

def letterA : Text := ⟨[97], by simp [recordValLen]⟩

/-- Inside a string literal the letter is a name. -/
lemma reads_letterA : Reads (.opened s) held [quote, 97, quote]
    [(⟨.string, tokenText s⟩, true), (⟨.ident, [97]⟩, true)] (.opened []) := by
  have hletter : (LexState.quoted s).goesOn 97 = none := by simp [goesOn, quote]
  have hopen : (start 97).goesOn quote = none := rfl
  have hname : (start 97).pending.map (·, true) = [(⟨.ident, [97]⟩, true)] := by decide +kernel
  have hrest : Reads (start 97) true [quote] [(⟨.ident, [97]⟩, true)] (start quote) := by
    have h : Reads (start 97) true [quote] ((start 97).pending.map (·, true) ++ []) (start quote) :=
      reads_end hopen reads_nil
    rwa [hname] at h
  exact reads_on goesOn_close (reads_end hletter hrest)

lemma closed_of_literal (htext : inQuotes (columnType layout col)) (ha : row.text col = letterA)
    (hlit : ∀ t ∈ markedTokens layout row st held ps, t.2 → t.1.isLiteral) :
    AtRefs layout row (fun st c => c = col → st.isOpened = false) st ps := by
  induction ps generalizing st held with
  | nil => trivial
  | cons p ps ih =>
    cases p with
    | byte b => exact ih fun t ht => hlit t (mem_append_right _ ht)
    | ref name =>
      refine ⟨fun hcol => ?_, ih fun t ht => hlit t (mem_append_right _ ht)⟩
      rw [← Bool.not_eq_true]
      intro hopen
      obtain ⟨s, rfl⟩ : ∃ s, st = .opened s := by cases st <;> first | exact ⟨_, rfl⟩ | cases hopen
      have hv : spliced layout row (refColumn layout name) = [quote, 97, quote] := by
        rw [spliced, hcol, ha, splice_quoted htext]
        rfl
      have hname :=
        hlit (⟨.ident, [97]⟩, true) (mem_append_left _ (by simp [hv, reads_letterA.1])) rfl
      cases hname

/-- Whether a reference stands inside a string literal is the same for all rows. -/
lemma closed_congr (hr : Holds layout row ps) (hr' : Holds layout row' ps)
    (hopen : st.isOpened = st'.isOpened)
    (h : AtRefs layout row (fun st c => c = col → st.isOpened = false) st ps) :
    AtRefs layout row' (fun st c => c = col → st.isOpened = false) st' ps := by
  induction ps generalizing st st' with
  | nil => trivial
  | cons p ps ih =>
    cases p with
    | byte b =>
      refine ih hr hr' ?_ h
      rw [isOpened_step, isOpened_step, hopen]
    | ref name =>
      obtain ⟨hstored, hr⟩ := forall_mem_cons.1 hr
      obtain ⟨hstored', hr'⟩ := forall_mem_cons.1 hr'
      have heven := Nat.not_odd_iff_even.2 (even_quotes_splice hstored)
      have heven' := Nat.not_odd_iff_even.2 (even_quotes_splice hstored')
      refine ⟨fun hcol => hopen ▸ h.1 hcol, ih hr hr' ?_ h.2⟩
      rw [isOpened_after, isOpened_after, hopen, spliced, spliced, decide_eq_false heven,
        decide_eq_false heven']

lemma render_length_le
    (h : ∀ name ∈ refNames ps, (spliced layout row' (refColumn layout name)).length ≤
      (spliced layout row (refColumn layout name)).length) :
    (render layout row' ps).length ≤ (render layout row ps).length := by
  induction ps with
  | nil => exact le_rfl
  | cons p ps ih =>
    cases p with
    | byte b => exact Nat.succ_le_succ (ih h)
    | ref name =>
      obtain ⟨hname, h⟩ := forall_mem_cons.1 h
      rw [render, render, length_append, length_append]
      exact Nat.add_le_add hname (ih h)

/-- A row as read from the table, without a NULL in a referenced column. -/
structure Filled (layout : List Column) (text : List UInt8) (row : RowValues) : Prop where
  typed : TypedRow layout row
  filled : ∀ name ∈ refNames (pieces text), row.isNull (refColumn layout name) = false

/-- Every referenced column exists, and the buffer has room for the result. -/
structure Spliceable (layout : List Column) (text : List UInt8) (row : RowValues) : Prop
    extends Filled layout text row where
  found : ∀ name ∈ refNames (pieces text), (findColumnIndex layout (nameOfBytes name)).isSome
  room : (render layout row (pieces text)).length < predicateSubqueryTextLen

lemma substituteOuterRefs_ok_iff : substituteOuterRefs layout row text = .ok out ↔
    out = render layout row (pieces text) ∧
      (∀ name ∈ refNames (pieces text), (findColumnIndex layout (nameOfBytes name)).isSome) ∧
      (render layout row (pieces text)).length < predicateSubqueryTextLen := by
  rw [substituteOuterRefs, substituteFrom_ok_iff (by decide), Nat.zero_add]
  exact and_congr_right fun hout => by rw [hout, pieces]

lemma Filled.spliceable (h : Filled layout text row)
    (hok : substituteOuterRefs layout row text = .ok out) : Spliceable layout text row :=
  have hiff := substituteOuterRefs_ok_iff.1 hok
  { h with found := hiff.2.1, room := hiff.2.2 }

lemma Spliceable.ok (h : Spliceable layout text row) :
    substituteOuterRefs layout row text = .ok (render layout row (pieces text)) :=
  substituteOuterRefs_ok_iff.2 ⟨rfl, h.found, h.room⟩

lemma Spliceable.holds (h : Spliceable layout text row) : Holds layout row (pieces text) := by
  intro name hname
  obtain ⟨col, hcol⟩ := Option.isSome_iff_exists.1 (h.found name hname)
  have hlt : refColumn layout name < layout.length := by
    rw [refColumn, hcol]
    exact findColumnIndex_lt hcol
  exact h.typed.value _ hlt (h.filled name hname)

def withLetterA (row : RowValues) (col : ℕ) : RowValues :=
  { row with values := row.values.set col letterA }

section withLetterA

variable (hne : (row.text col).1 ≠ [])
include hne

lemma lt_count_of_text : col < row.count := by
  rw [← not_le]
  intro hle
  refine hne ?_
  rw [RowValues.text, getD_eq_getElem?_getD, getElem?_eq_none hle]
  rfl

lemma text_withLetterA (c : ℕ) :
    (withLetterA row col).text c = if c = col then letterA else row.text c := by
  have hlt := lt_count_of_text hne
  unfold RowValues.count at hlt
  unfold withLetterA RowValues.text
  grind

lemma Spliceable.withLetterA (h : Spliceable layout text row)
    (htext : inQuotes (columnType layout col)) : Spliceable layout text (withLetterA row col) where
  typed := by
    refine ⟨by simp [Sql.withLetterA, RowValues.count, ← h.typed.count], ?_, ?_⟩
    · intro c hc hnull
      have hempty := h.typed.null c hc hnull
      rw [text_withLetterA hne, if_neg, hempty]
      rintro rfl
      exact hne (by rw [hempty]; rfl)
    · intro c hc hnull
      rw [text_withLetterA hne]
      split_ifs with hcol
      · rw [hcol]
        cases hc : columnType layout col <;> first | trivial | simp [hc, inQuotes] at htext
      · exact h.typed.value c hc hnull
  found := h.found
  filled := h.filled
  room := by
    refine lt_of_le_of_lt (render_length_le fun name _ => ?_) h.room
    unfold spliced
    rw [text_withLetterA hne]
    split_ifs with hcol
    · obtain ⟨b, bs, hb⟩ := exists_cons_of_ne_nil hne
      have hescape : 0 < (escapeQuotes (row.text col).1).length := by
        rw [hb]
        grind [escapeQuotes]
      rw [hcol, splice_quoted htext, splice_quoted htext, length_append, length_append, length_cons,
        length_cons]
      exact Nat.add_le_add_right (Nat.succ_le_succ hescape) _
    · exact le_rfl

end withLetterA

def splicedTokens (layout : List Column) (row : RowValues) (text : List UInt8) :
    List (SqlToken × Bool) :=
  markedTokens layout row .gap false (pieces text)

/-- What the rows' values can change in the tokens: the contents of literals that hold them. -/
structure TokensKept (layout : List Column) (text : List UInt8) : Prop where
  tokens : ∀ row out, substituteOuterRefs layout row text = .ok out →
    sqlTokens out = (splicedTokens layout row text).map Prod.fst
  literal : ∀ row out, Filled layout text row → substituteOuterRefs layout row text = .ok out →
    ∀ t ∈ splicedTokens layout row text, t.2 → t.1.isLiteral
  same : ∀ row out row' out', Filled layout text row → Filled layout text row' →
    substituteOuterRefs layout row text = .ok out →
    substituteOuterRefs layout row' text = .ok out' →
    (splicedTokens layout row text).map blur = (splicedTokens layout row' text).map blur

/-- In every row that can be spliced, a text inside a string literal is empty, a decimal behind
the point of a number is negative, and one behind a minus sign has always the same sign. -/
structure RefsApart (layout : List Column) (text : List UInt8) : Prop where
  apart : ∀ row, Spliceable layout text row → ApartAt layout row .gap (pieces text)
  sameSign : ∀ row row', Spliceable layout text row → Spliceable layout text row' →
    AtRefs layout row (SameSign layout row row') .gap (pieces text)

lemma placed_pieces : Placed .gap false (pieces text) := ⟨spaced_splitFrom nofun, fun _ => rfl⟩

lemma splicedTokens_same_iff (h : Spliceable layout text row) (h' : Spliceable layout text row')
    (hapart : ∀ row, Spliceable layout text row → ApartAt layout row .gap (pieces text)) :
    (splicedTokens layout row text).map blur = (splicedTokens layout row' text).map blur ↔
      AtRefs layout row (SameSign layout row row') .gap (pieces text) :=
  tokens_same_iff placed_pieces h.holds h'.holds .refl nofun nofun
    (hapart row h) (hapart row' h')

lemma TokensKept.apart (hkept : TokensKept layout text) (h : Spliceable layout text row) :
    ApartAt layout row .gap (pieces text) := by
  have hclosed : ∀ col : { c // inQuotes (columnType layout c) ∧ (row.text c).1 ≠ [] },
      AtRefs layout row (fun st c => c = col → st.isOpened = false) .gap (pieces text) := by
    rintro ⟨col, htext, hne⟩
    have hletter := h.withLetterA hne htext
    have hat := closed_of_literal htext ((text_withLetterA hne col).trans (if_pos rfl))
      (hkept.literal _ _ hletter.toFilled hletter.ok)
    exact closed_congr hletter.holds h.holds rfl hat
  have hnegative := negative_of_literal h.holds (hkept.literal _ _ h.toFilled h.ok)
  refine (AtRefs.of_forall hclosed).imp₂ hnegative fun st col hclosed hnegative =>
    ⟨fun htext hopen => ?_, hnegative⟩
  by_contra hne
  cases (hclosed ⟨col, htext, hne⟩ rfl).symm.trans hopen

/-- Which texts keep their tokens whatever the row; NULLs are not told from values. -/
theorem splice_keeps_tokens_iff (layout : List Column) (text : List UInt8) :
    (TokensKept layout text ↔ RefsApart layout text) ∧
      ∀ row mask, substituteOuterRefs layout { row with nullMask := mask } text =
        substituteOuterRefs layout row text := by
  refine ⟨⟨fun hkept => ?_, fun hapart => ?_⟩, fun row mask => ?_⟩
  · have hapart := fun row (h : Spliceable layout text row) => hkept.apart h
    refine ⟨hapart, fun row row' h h' => ?_⟩
    exact (splicedTokens_same_iff h h' hapart).1
      (hkept.same _ _ _ _ h.toFilled h'.toFilled h.ok h'.ok)
  · refine ⟨fun row out hok => ?_, fun row out h hok => ?_,
      fun row out row' out' h h' hok hok' => ?_⟩
    · rw [sqlTokens_eq_tokens, (substituteOuterRefs_ok_iff.1 hok).1]
      exact markedTokens_fst.symm
    · have hs := h.spliceable hok
      exact tokens_literal placed_pieces hs.holds nofun nofun (hapart.apart row hs)
    · have hs := h.spliceable hok
      have hs' := h'.spliceable hok'
      exact (splicedTokens_same_iff hs hs' hapart.apart).2 (hapart.sameSign row row' hs hs')
  · exact substituteFrom_congr fun _ => rfl

section Sample

def nameLayout : List Column := [⟨"s", .string, 3⟩]

def nameRow (name : Text) : RowValues := ⟨0, [name]⟩

def nullName : RowValues := ⟨1, [Text.empty]⟩

lemma typedRow_nameRow : TypedRow nameLayout (nameRow name) where
  count := rfl
  null := by
    intro col hcol h
    simp [nameRow, RowValues.isNull] at h
  value := by
    intro col hcol _
    obtain rfl : col = 0 := Nat.lt_one_iff.1 hcol
    trivial

def plainRef : List UInt8 := "SELECT k FROM t WHERE s = OUTER.s".toUTF8.toList

def quotedRef : List UInt8 := "SELECT k FROM t WHERE s = 'OUTER.s'".toUTF8.toList

set_option maxRecDepth 8000

def digit1 : Text := ⟨[49], by simp [recordValLen]⟩

/-- Inside of a string literal the value's quotes close it; and a NULL is spliced like an empty
string. -/
theorem quotedRef_reads_value_as_sql :
    ¬TokensKept nameLayout quotedRef ∧
      (substituteOuterRefs nameLayout (nameRow letterA) quotedRef).toOption.map
          (fun out => (sqlTokens out)[8]?) = some (some ⟨.ident, [97]⟩) ∧
      (substituteOuterRefs nameLayout (nameRow digit1) quotedRef).toOption.map
          (fun out => (sqlTokens out)[8]?) = some (some ⟨.number, [49]⟩) ∧
      substituteOuterRefs nameLayout nullName plainRef =
        substituteOuterRefs nameLayout (nameRow Text.empty) plainRef := by
  refine ⟨fun hkept => ?_, by decide +kernel, by decide +kernel, by decide +kernel⟩
  have hfilled : Filled nameLayout quotedRef (nameRow letterA) :=
    ⟨typedRow_nameRow, by decide +kernel⟩
  have hname := hkept.literal _ "SELECT k FROM t WHERE s = ''a''".toUTF8.toList hfilled
    (by decide +kernel) (⟨.ident, [97]⟩, true) (by decide +kernel) rfl
  cases hname

end Sample

end AeroSLS.Sql
