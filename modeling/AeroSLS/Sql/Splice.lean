import AeroSLS.Sql.Lexer
import AeroSLS.Sql.Rows

namespace AeroSLS.Sql

open Rowstore List

variable {layout : List Column} {text s ds v : List UInt8} {row row' : RowValues}

inductive Piece
  | byte (b : UInt8)
  | ref (name : List UInt8)
  deriving DecidableEq

/-- The text as `substitute_outer_refs` reads it. -/
def splitFrom : Option UInt8 → ℕ → List UInt8 → List Piece
  | _, _, [] => []
  | _, skip + 1, b :: bs => splitFrom (some b) skip bs
  | before, 0, b :: bs =>
    if !before.any charIsIdent && isOuterAt (b :: bs) && refName (b :: bs) ≠ [] then
      .ref (refName (b :: bs)) :: splitFrom (some b) (5 + (refName (b :: bs)).length) bs
    else .byte b :: splitFrom (some b) 0 bs

def pieces (text : List UInt8) : List Piece := splitFrom none 0 text

def refNames : List Piece → List (List UInt8)
  | [] => []
  | .byte _ :: ps => refNames ps
  | .ref name :: ps => name :: refNames ps

def refColumn (layout : List Column) (name : List UInt8) : ℕ :=
  (findColumnIndex layout (nameOfBytes name)).getD 0

def spliced (layout : List Column) (row : RowValues) (col : ℕ) : List UInt8 :=
  formatValueForSplice (columnType layout col) (row.text col)

def render (layout : List Column) (row : RowValues) : List Piece → List UInt8
  | [] => []
  | .byte b :: ps => b :: render layout row ps
  | .ref name :: ps => spliced layout row (refColumn layout name) ++ render layout row ps

lemma emit_ok_iff {found : Prop} {rendered : List UInt8}
    (hrest : ∀ oi out, oi < predicateSubqueryTextLen → (rest oi = .ok out ↔
      out = rendered ∧ found ∧ oi + out.length < predicateSubqueryTextLen)) :
    emit oi piece rest = .ok out ↔
      out = piece ++ rendered ∧ found ∧ oi + out.length < predicateSubqueryTextLen := by
  unfold emit
  split_ifs with hlong
  · grind
  have hiff := fun out => hrest (oi + piece.length) out (Nat.not_le.1 hlong)
  clear hrest
  cases h : rest (oi + piece.length) with
  | error => grind
  | ok => grind

/-- What is written, if the columns exist and the buffer is long enough. -/
theorem substituteFrom_ok_iff (hoi : oi < predicateSubqueryTextLen) :
    substituteFrom layout row before skip oi text = .ok out ↔
      out = render layout row (splitFrom before skip text) ∧
      (∀ name ∈ refNames (splitFrom before skip text),
        (findColumnIndex layout (nameOfBytes name)).isSome) ∧
      oi + out.length < predicateSubqueryTextLen := by
  induction text generalizing before skip oi out with
  | nil =>
    have hrun : substituteFrom layout row before skip oi [] = .ok [] := by cases skip <;> rfl
    have hsplit : splitFrom before skip [] = [] := by cases skip <;> rfl
    rw [hrun, hsplit]
    grind [render, refNames]
  | cons b bs ih =>
    cases skip with
    | succ => exact ih hoi
    | zero =>
      rw [substituteFrom, splitFrom]
      by_cases hr : (!before.any charIsIdent && isOuterAt (b :: bs) && refName (b :: bs) ≠ [])
      · rw [if_pos hr, if_pos hr]
        cases hcol : findColumnIndex layout (nameOfBytes (refName (b :: bs))) with
        | none => simp [refNames, hcol]
        | some col =>
          have hrender : spliced layout row (refColumn layout (refName (b :: bs))) =
              formatValueForSplice (columnType layout col) (row.text col) := by
            simp [spliced, refColumn, hcol]
          rw [emit_ok_iff fun _ _ hlt => ih hlt, render, hrender]
          simp [refNames, hcol]
      · rw [if_neg hr, if_neg hr, emit_ok_iff fun _ _ hlt => ih hlt]
        rfl

lemma substituteFrom_congr (h : ∀ col, row'.text col = row.text col) :
    substituteFrom layout row' before skip oi text =
      substituteFrom layout row before skip oi text := by
  induction text generalizing before skip oi with
  | nil => cases skip <;> rfl
  | cons b bs ih =>
    cases skip with
    | succ => exact ih
    | zero => simp only [substituteFrom, h, ih]

def headIdent : List Piece → Bool
  | .byte b :: _ => charIsIdent b
  | _ => false

/-- No reference follows or precedes a character of a name; `ident` tells that one comes
before the pieces. -/
def Spaced : Bool → List Piece → Prop
  | _, [] => True
  | _, .byte b :: ps => Spaced (charIsIdent b) ps
  | ident, .ref _ :: ps => ident = false ∧ headIdent ps = false ∧ Spaced true ps

lemma splitFrom_skip :
    ∃ before', splitFrom before skip text = splitFrom before' 0 (text.drop skip) := by
  induction skip generalizing before text with
  | zero => exact ⟨before, rfl⟩
  | succ skip ih =>
    cases text with
    | nil => exact ⟨before, rfl⟩
    | cons => exact ih

lemma charIsIdent_of_isOuterAt (h : isOuterAt (b :: bs)) : charIsIdent b := by
  simp only [isOuterAt, take_succ_cons, map_cons, cons.injEq, decide_eq_true_eq] at h
  have hlow := h.1
  unfold toLower at hlow
  split_ifs at hlow with hupper
  · simp [charIsIdent, hupper]
  · subst hlow
    decide

lemma headIdent_splitFrom (h : ∀ b, text.head? = some b → charIsIdent b = false) :
    headIdent (splitFrom before 0 text) = false := by
  rcases text with _ | ⟨b, bs⟩
  · rfl
  have hb := h b rfl
  rw [splitFrom]
  split_ifs
  · rfl
  · exact hb

lemma head_after_ref (bs : List UInt8) :
    ∀ n, (bs.drop (5 + (refName (b :: bs)).length)).head? = some n → charIsIdent n = false := by
  intro n hn
  have hdrop : bs.drop (5 + (refName (b :: bs)).length) = (bs.drop 5).dropWhile charIsIdent := by
    rw [← drop_drop]
    have h := takeWhile_append_dropWhile (p := charIsIdent) (l := bs.drop 5)
    conv_lhs => rw [← h]
    exact drop_left
  rw [hdrop] at hn
  have := head?_dropWhile_not charIsIdent (bs.drop 5)
  rw [hn] at this
  simpa using this

lemma spaced_splitFrom {ident : Bool} (h : ident → before.any charIsIdent ∨
      ∀ b, text.head? = some b → charIsIdent b = false) :
    Spaced ident (splitFrom before 0 text) := by
  induction hn : text.length using Nat.strong_induction_on generalizing text before ident with
  | _ n ih =>
    subst hn
    rcases text with _ | ⟨b, bs⟩
    · trivial
    rw [splitFrom]
    split_ifs with hr
    · simp only [Bool.and_eq_true] at hr
      have hb : charIsIdent b := charIsIdent_of_isOuterAt hr.1.2
      obtain ⟨before', hskip⟩ := splitFrom_skip
      rw [hskip]
      refine ⟨?_, headIdent_splitFrom (head_after_ref bs), ?_⟩
      · grind
      · exact ih _ (by grind) (fun _ => .inr (head_after_ref bs)) rfl
    · exact ih bs.length (Nat.lt_succ_self _) (fun hb => .inl hb) rfl

def SqlToken.isLiteral (t : SqlToken) : Bool :=
  match t.kind with
  | .number | .string | .keyword .true | .keyword .false => true
  | _ => false

/-- The token without the contents of a literal. -/
def SqlToken.outline (t : SqlToken) : SqlToken :=
  match t.kind with
  | .number => ⟨.number, []⟩
  | .string => ⟨.string, []⟩
  | .keyword .true | .keyword .false => ⟨.keyword .true, []⟩
  | _ => t

/-- A token that holds bytes of a value, without its contents. -/
def blur (t : SqlToken × Bool) : SqlToken × Bool := (if t.2 then t.1.outline else t.1, t.2)

namespace LexState

variable {st st' : LexState} {n w ip dec : List UInt8} {b c : UInt8} {held : Bool}
  {out out' : List (SqlToken × Bool)}

/-- The tokens that end while a value is read, each with whether it holds a byte of a value. -/
def endedBy : LexState → Bool → List UInt8 → List (SqlToken × Bool)
  | _, _, [] => []
  | st, held, b :: bs =>
    (if (st.goesOn b).isSome then [] else st.pending.map (·, held)) ++ endedBy (st.step b) true bs

lemma endedBy_append (hv : v ≠ []) (w : List UInt8) :
    st.endedBy held (v ++ w) = st.endedBy held v ++ (st.after v).endedBy true w := by
  induction v generalizing st held with
  | nil => exact absurd rfl hv
  | cons b v ih =>
    rcases v with _ | ⟨b', v⟩
    · simp [endedBy, after]
    · rw [cons_append, endedBy, endedBy, ih (cons_ne_nil b' v), append_assoc]
      rfl

lemma pending_fst : (st.pending.map (·, held)).map Prod.fst = st.pending := by
  simp [Function.comp_def]

lemma endedBy_fst : (st.endedBy held v).map Prod.fst = st.ended v := by
  induction v generalizing st held with
  | nil => rfl
  | cons b v ih =>
    rw [endedBy, ended, map_append, ih]
    split_ifs
    · rfl
    · rw [pending_fst]

def isOpened : LexState → Bool
  | opened _ => true
  | _ => false

def isWord : LexState → Bool
  | word _ => true
  | _ => false

def isFrac : LexState → Bool
  | frac _ => true
  | _ => false

def isQuoted : LexState → Bool
  | quoted _ => true
  | _ => false

/-- The last character was none of a name. -/
def settled : LexState → Bool
  | word _ | int _ => false
  | _ => true

def inLiteral : LexState → Bool
  | int _ | frac _ | opened _ | quoted _ => true
  | word w => w = trueText ∨ w = falseText
  | _ => false

/-- Reading the value ends these tokens and leads to this state. -/
def Reads (st : LexState) (held : Bool) (v : List UInt8) (out : List (SqlToken × Bool))
    (st' : LexState) : Prop :=
  st.endedBy held v = out ∧ st.after v = st'

lemma Reads.trans (h : Reads st held v out st') (hv : v ≠ []) (h' : Reads st' true w out' st'') :
    Reads st held (v ++ w) (out ++ out') st'' := by
  obtain ⟨rfl, rfl⟩ := h
  obtain ⟨rfl, rfl⟩ := h'
  exact ⟨endedBy_append hv w, after_append v w⟩

lemma reads_nil : Reads st held [] [] st := ⟨rfl, rfl⟩

lemma reads_on (h : st.goesOn b = some st') (hv : Reads st' true v out st'') :
    Reads st held (b :: v) out st'' := by
  have hb : Reads st held [b] [] st' := by simp [Reads, endedBy, after, step, h]
  exact hb.trans (cons_ne_nil b []) hv

lemma reads_end (h : st.goesOn b = none) (hv : Reads (start b) true v out st'') :
    Reads st held (b :: v) (st.pending.map (·, held) ++ out) st'' := by
  have hb : Reads st held [b] (st.pending.map (·, held)) (start b) := by
    simp [Reads, endedBy, after, step, h]
  exact hb.trans (cons_ne_nil b []) hv

lemma reads_fresh (h : st.goesOn b = none) (hv : Reads (start b) true v [] st'') :
    Reads st held (b :: v) (st.pending.map (·, held)) st'' := by
  have hend : Reads st held (b :: v) (st.pending.map (·, held) ++ []) st'' := reads_end h hv
  rwa [append_nil] at hend

/-- Characters that all belong to the token. -/
lemma reads_each {f : List UInt8 → LexState}
    (h : ∀ n, ∀ d ∈ ds, (f n).goesOn d = some (f (n ++ [d]))) :
    Reads (f n) held ds [] (f (n ++ ds)) := by
  induction ds generalizing n held with
  | nil =>
    rw [append_nil]
    exact reads_nil
  | cons d ds ih =>
    rw [append_cons]
    exact reads_on (h n d (mem_cons_self ..)) (ih fun n d hd => h n d (mem_cons_of_mem _ hd))

lemma reads_int (h : ∀ d ∈ ds, isDigit d) : Reads (int n) held ds [] (int (n ++ ds)) :=
  reads_each fun n d hd => by simp [goesOn, h d hd]

lemma reads_frac (h : ∀ d ∈ ds, isDigit d) : Reads (frac n) held ds [] (frac (n ++ ds)) :=
  reads_each fun n d hd => by simp [goesOn, h d hd]

lemma reads_word (h : ∀ d ∈ ds, charIsIdent d) : Reads (word n) held ds [] (word (n ++ ds)) :=
  reads_each fun n d hd => by simp [goesOn, h d hd]

lemma reads_opened (h : quote ∉ ds) : Reads (opened n) held ds [] (opened (n ++ ds)) :=
  reads_each fun n d hd => by simp [goesOn, ne_of_mem_of_not_mem hd h]

lemma goesOn_close : (opened s).goesOn quote = some (quoted s) := by simp [goesOn]

lemma goesOn_reopen : (quoted s).goesOn quote = some (opened (s ++ [quote])) := by simp [goesOn]

/-- The value and the quote behind it. -/
lemma reads_escapeQuotes :
    Reads (opened s) true (escapeQuotes v ++ [quote]) [] (quoted (s ++ v)) := by
  induction v generalizing s with
  | nil =>
    rw [append_nil]
    exact reads_on goesOn_close reads_nil
  | cons b v ih =>
    have hs : s ++ b :: v = s ++ [b] ++ v := append_cons s b v
    unfold escapeQuotes at ih ⊢
    rw [flatMap_cons, hs]
    by_cases hb : b = quote
    · subst hb
      rw [if_pos rfl]
      exact reads_on goesOn_close (reads_on goesOn_reopen ih)
    · have hopened : (opened s).goesOn b = some (opened (s ++ [b])) := by simp [goesOn, hb]
      rw [if_neg hb]
      exact reads_on hopened ih

/-- A character that begins a token of its own. -/
lemma goesOn_none (hset : st.settled) (hopen : st.isOpened = false) (hdigit : isDigit b = false)
    (hpair : ∀ c, pairSymbol c b = none) (hquote : b = quote → ∀ s, st ≠ quoted s) :
    st.goesOn b = none := by
  cases st with
  | opened => cases hopen
  | word | int => cases hset
  | quoted s => exact if_neg fun hb => hquote hb s rfl
  | gap | frac | symbol | pair => simp [goesOn, hdigit, hpair]

lemma reads_literal (held : Bool) (v : List UInt8) (hset : st.settled)
    (hopen : st.isOpened = false) :
    (∃ s, st = quoted s ∧
      Reads st held (quote :: escapeQuotes v ++ [quote]) [] (quoted (s ++ [quote] ++ v))) ∨
    (∀ s, st ≠ quoted s) ∧
      Reads st held (quote :: escapeQuotes v ++ [quote]) (st.pending.map (·, held)) (quoted v) := by
  by_cases hq : ∃ s, st = quoted s
  · obtain ⟨s, rfl⟩ := hq
    exact .inl ⟨s, rfl, reads_on goesOn_reopen reads_escapeQuotes⟩
  · refine .inr ⟨not_exists.1 hq, ?_⟩
    have hnone : st.goesOn quote = none := goesOn_none hset hopen (by decide)
      (by simp [pairSymbol, quote]) fun _ => not_exists.1 hq
    have hopened : Reads (start quote) true (escapeQuotes v ++ [quote]) [] (quoted v) :=
      reads_escapeQuotes
    exact reads_fresh hnone hopened

def joinsDigit : LexState → Bool
  | frac _ => true
  | symbol c => c = minusSign
  | _ => false

lemma pairSymbol_of_isDigit (h : isDigit b) : pairSymbol c b = none := by
  have hne : b ≠ 61 ∧ b ≠ 62 := by
    constructor <;> rintro rfl <;> exact absurd h (by decide)
  simp [pairSymbol, hne]

lemma start_of_isDigit (h : isDigit b) : start b = int [b] := by
  have hspace : isSpace b = false := by
    rw [← Bool.not_eq_true]
    intro hspace
    simp only [isSpace, Bool.or_eq_true, decide_eq_true_eq] at hspace
    rcases hspace with ((rfl | rfl) | rfl) | rfl <;> exact absurd h (by decide)
  simp [start, hspace, h]

lemma reads_digits (held : Bool) (hne : ds ≠ []) (h : ∀ d ∈ ds, isDigit d) (hset : st.settled)
    (hopen : st.isOpened = false) :
    (∃ n, st = frac n ∧ Reads st held ds [] (frac (n ++ ds))) ∨
    st = symbol minusSign ∧ Reads st held ds [] (int (minusSign :: ds)) ∨
    st.joinsDigit = false ∧ Reads st held ds (st.pending.map (·, held)) (int ds) := by
  obtain ⟨d, ds, rfl⟩ := exists_cons_of_ne_nil hne
  obtain ⟨hd, hds⟩ := forall_mem_cons.1 h
  have hfresh : st.goesOn d = none →
      Reads st held (d :: ds) (st.pending.map (·, held)) (int (d :: ds)) := by
    intro hnone
    have hrest : Reads (start d) true ds [] (int (d :: ds)) := by
      rw [start_of_isDigit hd]
      exact reads_int hds
    exact reads_fresh hnone hrest
  cases st with
  | frac n => exact .inl ⟨n, rfl, reads_frac h⟩
  | symbol c =>
    by_cases hc : c = minusSign
    · subst hc
      have hon : (symbol minusSign).goesOn d = some (int [minusSign, d]) := by simp [goesOn, hd]
      exact .inr (.inl ⟨rfl, reads_on hon (reads_int hds)⟩)
    · refine .inr (.inr ⟨by simp [joinsDigit, hc], hfresh ?_⟩)
      simp [goesOn, hc, pairSymbol_of_isDigit hd]
  | opened => cases hopen
  | word | int => cases hset
  | gap | pair => exact .inr (.inr ⟨rfl, hfresh rfl⟩)
  | quoted s =>
    refine .inr (.inr ⟨rfl, hfresh ?_⟩)
    have hquote : d ≠ quote := by
      rintro rfl
      exact absurd hd (by decide)
    simp [goesOn, hquote]

section decimal

variable (hip : ip ≠ []) (hipd : ∀ d ∈ ip, isDigit d) (hdec : dec ≠ [])
  (hdecd : ∀ d ∈ dec, isDigit d)
include hip hipd hdec hdecd

lemma reads_decimal (held : Bool) (hset : st.settled) (hopen : st.isOpened = false) :
    (∃ n, st = frac n ∧ Reads st held (ip ++ point :: dec)
      [(⟨.number, tokenText (n ++ ip)⟩, true), (⟨.dot, []⟩, true)] (int dec)) ∨
    st = symbol minusSign ∧
      Reads st held (ip ++ point :: dec) [] (frac (minusSign :: ip ++ point :: dec)) ∨
    st.joinsDigit = false ∧
      Reads st held (ip ++ point :: dec) (st.pending.map (·, held))
        (frac (ip ++ point :: dec)) := by
  have hpoint : isDigit point = false := by decide
  have hint : ∀ n, Reads (int n) true (point :: dec) [] (frac (n ++ point :: dec)) := by
    intro n
    rw [append_cons]
    exact reads_on (by simp [goesOn, hpoint]) (reads_frac hdecd)
  obtain ⟨n, rfl, hn⟩ | ⟨rfl, hminus⟩ | ⟨hjoin, hfresh⟩ := reads_digits held hip hipd hset hopen
  · have hend : (frac (n ++ ip)).goesOn point = none := by simp [goesOn, hpoint]
    have hdot : Reads (symbol point) true dec [(⟨.dot, []⟩, true)] (int dec) := by
      obtain ⟨_, h, -⟩ | ⟨h, -⟩ | ⟨-, hdot⟩ :=
        reads_digits true hdec hdecd (rfl : (symbol point).settled) rfl
      · cases h
      · cases h
      · exact hdot
    exact .inl ⟨n, rfl, hn.trans hip (reads_end hend hdot)⟩
  · exact .inr (.inl ⟨rfl, hminus.trans hip (hint _)⟩)
  · refine .inr (.inr ⟨hjoin, ?_⟩)
    have h := hfresh.trans hip (hint _)
    rwa [append_nil] at h

/-- A sign is taken into nothing. -/
lemma reads_negative (held : Bool) (hset : st.settled) (hopen : st.isOpened = false) :
    Reads st held (minusSign :: (ip ++ point :: dec)) (st.pending.map (·, held))
      (frac (minusSign :: ip ++ point :: dec)) := by
  have hnone : st.goesOn minusSign = none := goesOn_none hset hopen (by decide)
    (by simp [pairSymbol, minusSign]) fun h => absurd h (by decide)
  have hrest : Reads (start minusSign) true (ip ++ point :: dec) []
      (frac (minusSign :: ip ++ point :: dec)) := by
    obtain ⟨_, h, -⟩ | ⟨-, h⟩ | ⟨h, -⟩ :=
      reads_decimal hip hipd hdec hdecd true (rfl : (symbol minusSign).settled) rfl
    · cases h
    · exact h
    · cases h
  exact reads_fresh hnone hrest

end decimal

lemma reads_bool (held : Bool) (hw : w = trueText ∨ w = falseText) (hset : st.settled)
    (hopen : st.isOpened = false) : Reads st held w (st.pending.map (·, held)) (word w) := by
  obtain ⟨b, w, rfl, hb, hword⟩ : ∃ b w', w = b :: w' ∧ (b = 116 ∨ b = 102) ∧
      ∀ d ∈ w', charIsIdent d := by
    rcases hw with rfl | rfl
    · exact ⟨_, _, rfl, by decide, all_eq_true.1 rfl⟩
    · exact ⟨_, _, rfl, by decide, all_eq_true.1 rfl⟩
  have hnone : st.goesOn b = none := by
    apply goesOn_none hset hopen
    · rcases hb with rfl | rfl <;> decide
    · rcases hb with rfl | rfl <;> simp [pairSymbol]
    · rcases hb with rfl | rfl <;> exact fun h => absurd h (by decide)
  have hrest : Reads (start b) true w [] (word (b :: w)) := by
    have hstart : start b = word [b] := by rcases hb with rfl | rfl <;> rfl
    rw [hstart]
    exact reads_word hword
  exact reads_fresh hnone hrest

/-- The state without the contents of a literal. -/
def shape : LexState → LexState
  | int _ => int []
  | frac _ => frac []
  | opened _ => opened []
  | quoted _ => quoted []
  | word w => word (if w = trueText ∨ w = falseText then trueText else w)
  | st => st

lemma shape_bool (h : w = trueText ∨ w = falseText) : (word w).shape = word trueText :=
  congrArg word (if_pos h)

lemma goesOn_shape (hword : st.isWord → charIsIdent b = false) :
    (st.shape.goesOn b).map shape = (st.goesOn b).map shape := by
  cases st with
  | word w => simp [shape, goesOn, hword rfl]
  | gap | symbol | pair => rfl
  | int | frac | opened | quoted => grind [shape, goesOn]

lemma outline_pending :
    st.shape.pending.map SqlToken.outline = st.pending.map SqlToken.outline := by
  cases st with
  | word w =>
    by_cases hw : w = trueText ∨ w = falseText
    · rw [shape_bool hw]
      rcases hw with rfl | rfl <;> decide +kernel
    · rw [shape, if_neg hw]
  | _ => rfl

lemma inLiteral_shape : st.shape.inLiteral = st.inLiteral := by
  cases st with
  | word => grind [shape, inLiteral]
  | _ => rfl

/-- The states of two rows' readings: the same while no value is in the token. -/
structure Agree (held : Bool) (st st' : LexState) : Prop where
  alike : st.shape = st'.shape
  clean : held = false → st = st'

lemma Agree.refl : Agree held st st := ⟨rfl, fun _ => rfl⟩

section agree

variable (h : Agree held st st')
include h

lemma Agree.pending :
    (st.pending.map (·, held)).map blur = (st'.pending.map (·, held)).map blur := by
  cases held with
  | false => rw [h.clean rfl]
  | true =>
    have hout : st.pending.map SqlToken.outline = st'.pending.map SqlToken.outline := by
      rw [← outline_pending, h.alike, outline_pending]
    have hblur : ∀ ts : List SqlToken,
        (ts.map (·, true)).map blur = (ts.map SqlToken.outline).map (·, true) := by
      simp [blur, Function.comp_def]
    rw [hblur, hblur, hout]

/-- What does not look into literals is the same of both states. -/
lemma Agree.same {f : LexState → Bool} (hf : ∀ st, f st.shape = f st) : f st' = f st := by
  rw [← hf st', ← h.alike, hf]

lemma Agree.isOpened_eq : st'.isOpened = st.isOpened := h.same fun st => by cases st <;> rfl

lemma Agree.isQuoted_eq : st'.isQuoted = st.isQuoted := h.same fun st => by cases st <;> rfl

lemma Agree.isFrac_eq : st'.isFrac = st.isFrac := h.same fun st => by cases st <;> rfl

lemma Agree.settled_eq : st'.settled = st.settled := h.same fun st => by cases st <;> rfl

lemma Agree.joinsDigit_eq : st'.joinsDigit = st.joinsDigit := h.same fun st => by cases st <;> rfl

lemma Agree.isWord_eq : st'.isWord = st.isWord := h.same fun st => by cases st <;> rfl

lemma Agree.step (hword : held → st.isWord → charIsIdent b = false) :
    (st.goesOn b).isSome = (st'.goesOn b).isSome ∧
      Agree (held && (st.goesOn b).isSome) (st.step b) (st'.step b) := by
  cases held with
  | false =>
    rw [h.clean rfl]
    exact ⟨rfl, .refl⟩
  | true =>
    have hword := hword rfl
    have hon : (st.goesOn b).map shape = (st'.goesOn b).map shape := by
      rw [← goesOn_shape hword, h.alike, goesOn_shape fun hw => hword (h.isWord_eq ▸ hw)]
    unfold LexState.step
    cases hst : st.goesOn b with
    | none =>
      rw [hst, Option.map_none, eq_comm, Option.map_eq_none_iff] at hon
      rw [hon]
      exact ⟨rfl, .refl⟩
    | some s =>
      rw [hst, Option.map_some, eq_comm] at hon
      obtain ⟨s', hs', hshape⟩ := Option.map_eq_some_iff.1 hon
      rw [hs']
      exact ⟨rfl, hshape.symm, nofun⟩

end agree

/-- A string literal is open behind an odd number of quotes. -/
lemma isOpened_step : (st.step b).isOpened = (st.isOpened ^^ decide (b = quote)) := by
  have hdigit : isDigit quote = false := by decide
  have hident : charIsIdent quote = false := by decide
  have hspace : isSpace quote = false := by decide
  have hpoint : quote ≠ point := by decide
  have hpair : ∀ c, pairSymbol c quote = none := by simp [pairSymbol, quote]
  have hstart : (start b).isOpened = decide (b = quote) := by grind [start, isOpened]
  unfold step
  cases st with
  | opened => grind [goesOn, isOpened]
  | symbol c => cases hp : pairSymbol c b <;> grind [goesOn, isOpened]
  | gap | word | int | frac | quoted | pair => grind [goesOn, isOpened]

lemma isOpened_after (v : List UInt8) :
    (st.after v).isOpened = (st.isOpened ^^ decide (Odd (v.count quote))) := by
  induction v generalizing st with
  | nil => simp [after]
  | cons b v ih =>
    change ((st.step b).after v).isOpened = _
    rw [ih, isOpened_step]
    by_cases hb : b = quote
    · subst hb
      rw [count_cons_self]
      grind
    · grind

lemma settled_step (hb : charIsIdent b = false) : (st.step b).settled := by
  have hdigit : isDigit b = false := by
    rw [← Bool.not_eq_true]
    intro hd
    rw [charIsIdent_of_isDigit hd] at hb
    cases hb
  have hstart : (start b).settled := by grind [start, settled]
  unfold step
  cases st with
  | symbol c => cases hp : pairSymbol c b <;> grind [goesOn, settled]
  | opened | gap | word | int | frac | quoted | pair => grind [goesOn, settled]

end LexState

open LexState

def isNegative (value : List UInt8) : Bool := value.head? = some minusSign

/-- The values of the type are spliced in quotes. -/
def inQuotes : FieldType → Bool
  | .string | .blob => true
  | _ => false

lemma stored_float (h : Stored .float s) : ∃ ip dec : List UInt8, ip ≠ [] ∧ (∀ d ∈ ip, isDigit d) ∧
    dec ≠ [] ∧ (∀ d ∈ dec, isDigit d) ∧
      (s = ip ++ point :: dec ∧ isNegative s = false ∨
        s = minusSign :: (ip ++ point :: dec) ∧ isNegative s = true) := by
  obtain ⟨v, rfl⟩ := h
  obtain ⟨sign, ip, frac, hsign, hv⟩ := rsF64ToStr_shape
  obtain ⟨hdec, hlen⟩ := f64Decimals_spec 6 frac
  refine ⟨rsU64ToStr ip, f64Decimals 6 frac, rsU64ToStr_ne_nil ip, rsU64ToStr_digits ip, by grind,
    hdec, ?_⟩
  rw [hv]
  rcases hsign with rfl | rfl
  · exact .inr ⟨rfl, rfl⟩
  · refine .inl ⟨rfl, ?_⟩
    obtain ⟨d, ds, hds⟩ := exists_cons_of_ne_nil (rsU64ToStr_ne_nil ip)
    have hd := rsU64ToStr_digits ip d (by simp [hds])
    have hne : d ≠ minusSign := by
      rintro rfl
      exact absurd hd (by decide)
    simp [isNegative, hds, hne]

lemma quote_not_mem_digits (h : ∀ d ∈ ds, isDigit d) : quote ∉ ds := by
  intro hmem
  exact absurd (h quote hmem) (by decide)

section value

variable {type : FieldType} {a b : Text} {st st' : LexState} {held : Bool}

lemma quote_not_mem_splice (h : Stored type a.1) (htext : inQuotes type = false) :
    quote ∉ formatValueForSplice type a := by
  cases type with
  | string | blob => cases htext
  | uint64 =>
    obtain ⟨v, -, hv⟩ := h
    change quote ∉ a.1
    rw [hv]
    exact quote_not_mem_digits (rsU64ToStr_digits v)
  | float =>
    obtain ⟨ip, dec, -, hip, -, hdec, hs⟩ := stored_float h
    have hip := quote_not_mem_digits hip
    have hdec := quote_not_mem_digits hdec
    have hpoint : quote ≠ point := by decide
    have hminus : quote ≠ minusSign := by decide
    change quote ∉ a.1
    rcases hs with ⟨hs, -⟩ | ⟨hs, -⟩ <;> simp [hs, hip, hdec, hpoint, hminus]
  | bool =>
    change quote ∉ a.1
    rcases h with h | h <;> rw [h] <;> decide

lemma count_escapeQuotes : Even ((escapeQuotes s).count quote) := by
  induction s with
  | nil => simp [escapeQuotes]
  | cons b bs ih => grind [escapeQuotes]

lemma splice_quoted (htext : inQuotes type) :
    formatValueForSplice type a = quote :: escapeQuotes a.1 ++ [quote] := by
  cases type <;> first | rfl | cases htext

lemma even_quotes_splice (h : Stored type a.1) :
    Even ((formatValueForSplice type a).count quote) := by
  cases htext : inQuotes type with
  | false =>
    rw [count_eq_zero.2 (quote_not_mem_splice h htext)]
    exact Even.zero
  | true =>
    rw [splice_quoted htext]
    grind [count_escapeQuotes]

/-- Two quotes inside a string literal are a quote of it. -/
lemma reads_opened_empty : Reads (.opened s) held [quote, quote] [] (.opened (s ++ [quote])) :=
  reads_on goesOn_close (reads_on goesOn_reopen reads_nil)

/-- Where a value is read as one literal, or as a part of one. -/
def Apart (type : FieldType) (st : LexState) (a : List UInt8) : Prop :=
  (inQuotes type → st.isOpened → a = []) ∧ (type = .float → st.isFrac → isNegative a)

/-- The token before the value takes it in. -/
def joins (type : FieldType) (st : LexState) (a : List UInt8) : Bool :=
  st.isOpened || match type with
    | .string | .blob => st.isQuoted
    | .uint64 => st.joinsDigit
    | .float => st.joinsDigit && !isNegative a
    | .bool => false

/-- Where a value leads, up to the contents of the literal. -/
def landing (type : FieldType) (st : LexState) : LexState :=
  if st.isOpened then .opened []
  else match type with
    | .string | .blob => .quoted []
    | .uint64 => if st.isFrac then .frac [] else .int []
    | .float => .frac []
    | .bool => .word trueText

lemma reads_in_literal (ha : Stored type a.1) (hapart : Apart type (.opened s) a.1) : ∃ s',
    Reads (.opened s) held (formatValueForSplice type a) [] (.opened s') := by
  cases htext : inQuotes type with
  | false => exact ⟨_, reads_opened (quote_not_mem_splice ha htext)⟩
  | true =>
    rw [splice_quoted htext, hapart.1 htext rfl]
    exact ⟨_, reads_opened_empty⟩

theorem reads_value (held : Bool) (ha : Stored type a.1) (hset : st.settled)
    (hapart : Apart type st a.1) : ∃ st',
    Reads st held (formatValueForSplice type a)
      (if joins type st a.1 then [] else st.pending.map (·, held)) st' ∧
      st'.shape = landing type st := by
  cases hopen : st.isOpened with
  | true =>
    obtain ⟨s, rfl⟩ : ∃ s, st = .opened s := by cases st <;> first | exact ⟨_, rfl⟩ | cases hopen
    obtain ⟨s', hread⟩ := reads_in_literal ha hapart
    exact ⟨_, hread, rfl⟩
  | false =>
    unfold joins landing
    simp only [hopen, Bool.false_or, Bool.false_eq_true, if_false]
    cases type with
    | string | blob =>
      obtain ⟨s, rfl, hread⟩ | ⟨hq, hread⟩ := reads_literal held a.1 hset hopen
      · exact ⟨_, hread, rfl⟩
      · have hquoted : st.isQuoted = false := by cases st <;> first | rfl | exact absurd rfl (hq _)
        simp only [hquoted, Bool.false_eq_true, if_false]
        exact ⟨_, hread, rfl⟩
    | uint64 =>
      obtain ⟨x, -, hx⟩ := ha
      change ∃ st', Reads st held a.1 _ st' ∧ _
      rw [hx]
      obtain ⟨n, rfl, hread⟩ | ⟨rfl, hread⟩ | ⟨hjoin, hread⟩ :=
        reads_digits held (rsU64ToStr_ne_nil x) (rsU64ToStr_digits x) hset hopen
      · exact ⟨_, hread, rfl⟩
      · exact ⟨_, hread, rfl⟩
      · have hfrac : st.isFrac = false := by cases st <;> first | rfl | cases hjoin
        simp only [hjoin, hfrac, Bool.false_eq_true, if_false]
        exact ⟨_, hread, rfl⟩
    | float =>
      obtain ⟨ip, dec, hip, hipd, hdec, hdecd, ⟨hs, hneg⟩ | ⟨hs, hneg⟩⟩ := stored_float ha
      · simp only [hneg, Bool.not_false, Bool.and_true]
        change ∃ st', Reads st held a.1 _ st' ∧ _
        obtain ⟨n, rfl, -⟩ | ⟨rfl, hread⟩ | ⟨hjoin, hread⟩ :=
          reads_decimal hip hipd hdec hdecd held hset hopen
        · cases hneg.symm.trans (hapart.2 rfl rfl)
        · rw [hs]
          exact ⟨_, hread, rfl⟩
        · rw [hs, hjoin]
          exact ⟨_, hread, rfl⟩
      · simp only [hneg, Bool.not_true, Bool.and_false, Bool.false_eq_true, if_false]
        change ∃ st', Reads st held a.1 _ st' ∧ _
        rw [hs]
        exact ⟨_, reads_negative hip hipd hdec hdecd held hset hopen, rfl⟩
    | bool => exact ⟨_, reads_bool held ha hset hopen, shape_bool ha⟩

lemma inLiteral_landing (h : st'.shape = landing type st) : st'.inLiteral := by
  rw [← inLiteral_shape, h]
  cases type <;> grind [landing, inLiteral]

lemma LexState.Agree.landing_eq (h : Agree held st st') : landing type st' = landing type st := by
  unfold landing
  rw [h.isOpened_eq, h.isFrac_eq]

lemma LexState.Agree.joins_eq (h : Agree held st st') (ha : Apart type st a.1)
    (hb : Apart type st' b.1)
    (hsign : type = .float → st = .symbol minusSign → isNegative a.1 = isNegative b.1) :
    joins type st' b.1 = joins type st a.1 := by
  unfold joins
  rw [h.isOpened_eq, h.isQuoted_eq, h.joinsDigit_eq]
  cases type with
  | string | blob | uint64 | bool => rfl
  | float =>
    cases hjoin : st.joinsDigit with
    | false => rfl
    | true =>
      have hneg : isNegative a.1 = isNegative b.1 := by
        cases st with
        | frac n => exact (ha.2 rfl rfl).trans (hb.2 rfl h.isFrac_eq).symm
        | symbol c => exact hsign rfl (congrArg LexState.symbol (of_decide_eq_true hjoin))
        | gap | word | int | opened | quoted | pair => cases hjoin
      rw [hneg]

end value

end AeroSLS.Sql
