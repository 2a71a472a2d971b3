import AeroSLS.Sql.Subquery
import Mathlib.Algebra.Order.Ring.Nat
import Mathlib.Algebra.Ring.Parity
import Mathlib.Data.List.DropRight

namespace AeroSLS.Sql

open Rowstore List

variable {w p : List UInt8} {P : UInt8 → Bool} {f : UInt8}

inductive Keyword
  | select | «from» | «where» | and | or | order | by | asc | desc | limit
  | insert | into | values | update | set | delete | join | on | group | having
  | left | outer | as | in | like | is | not | null | true | false
  | create | table | alter | add | column | drop | index | unique | references
  | database | cascade | restrict | check | between | right | full
  | union | intersect | except | all | view | with
  | typeString | typeUint64 | typeFloat | typeBool | typeBlob
  deriving DecidableEq

inductive SqlTokenKind
  | eof | ident | number | string
  | keyword (k : Keyword)
  | star | comma | lparen | rparen | semi | dot
  | eq | ne | lt | gt | le | ge
  | plus | minus | slash
  | error
  deriving DecidableEq

structure SqlToken where
  kind : SqlTokenKind
  text : List UInt8
  deriving DecidableEq

/-- The table is in lower case, as `sq_streq_ci` compares. -/
def keywords : List (String × Keyword) :=
  [("select", .select), ("from", .from), ("where", .where), ("and", .and), ("or", .or),
    ("order", .order), ("by", .by), ("asc", .asc), ("desc", .desc), ("limit", .limit),
    ("insert", .insert), ("into", .into), ("values", .values), ("update", .update),
    ("set", .set), ("delete", .delete), ("join", .join), ("on", .on), ("group", .group),
    ("having", .having), ("left", .left), ("outer", .outer), ("as", .as), ("in", .in),
    ("like", .like), ("is", .is), ("not", .not), ("null", .null), ("true", .true),
    ("false", .false), ("create", .create), ("table", .table), ("alter", .alter),
    ("add", .add), ("column", .column), ("drop", .drop), ("index", .index),
    ("unique", .unique), ("references", .references), ("database", .database),
    ("cascade", .cascade), ("restrict", .restrict), ("check", .check),
    ("between", .between), ("right", .right), ("full", .full), ("union", .union),
    ("intersect", .intersect), ("except", .except), ("all", .all), ("view", .view),
    ("with", .with), ("string", .typeString), ("uint64", .typeUint64),
    ("float", .typeFloat), ("bool", .typeBool), ("blob", .typeBlob)]

def isSpace (c : UInt8) : Bool := c = 32 || c = 9 || c = 10 || c = 13

def minusSign : UInt8 := 45
def point : UInt8 := 46

/-- A token's text buffer takes 255 characters. -/
def tokenText (text : List UInt8) : List UInt8 := text.take (recordValLen - 1)

def wordKind (text : List UInt8) : SqlTokenKind :=
  let name := String.ofList (text.map fun b => Char.ofNat (toLower b).toNat)
  match keywords.lookup name with
  | some k => .keyword k
  | none => .ident

/-- Digits, then perhaps a point and more digits: the text and what follows it. -/
def lexNumber (src : List UInt8) : List UInt8 × List UInt8 :=
  let digits := src.takeWhile isDigit
  let rest := src.dropWhile isDigit
  if rest.head? = some point then
    (digits ++ point :: rest.tail.takeWhile isDigit, rest.tail.dropWhile isDigit)
  else (digits, rest)

/-- The contents of a string literal after its opening quote, and what follows it. -/
def lexString : List UInt8 → List UInt8 × List UInt8
  | [] => ([], [])
  | b :: bs =>
    if b = quote then
      match bs with
      | [] => ([], [])
      | b' :: bs' =>
        if b' = quote then (quote :: (lexString bs').1, (lexString bs').2) else ([], b' :: bs')
    else (b :: (lexString bs).1, (lexString bs).2)

def pairSymbol (c next : UInt8) : Option SqlTokenKind :=
  if c = 33 ∧ next = 61 then some .ne
  else if c = 60 ∧ next = 61 then some .le
  else if c = 60 ∧ next = 62 then some .ne
  else if c = 62 ∧ next = 61 then some .ge
  else none

/-- `* , ( ) ; . = + - / < >`; any other character is an error. -/
def singleSymbol (c : UInt8) : SqlTokenKind :=
  (lookup c [(42, .star), (44, .comma), (40, .lparen), (41, .rparen), (59, .semi), (46, .dot),
    (61, .eq), (43, .plus), (45, .minus), (47, .slash), (60, .lt), (62, .gt)]).getD .error

def lexSymbol (c : UInt8) (cs : List UInt8) : SqlTokenKind × List UInt8 :=
  match cs.head?.bind (pairSymbol c) with
  | some k => (k, cs.tail)
  | none => (singleSymbol c, cs)

def lexToken (c : UInt8) (cs : List UInt8) : SqlToken × List UInt8 :=
  if isDigit c then
    (⟨.number, tokenText (lexNumber (c :: cs)).1⟩, (lexNumber (c :: cs)).2)
  else if c = minusSign && cs.head?.any isDigit then
    (⟨.number, tokenText (minusSign :: (lexNumber cs).1)⟩, (lexNumber cs).2)
  else if charIsIdent c then
    let word := tokenText ((c :: cs).takeWhile charIsIdent)
    (⟨wordKind word, word⟩, (c :: cs).dropWhile charIsIdent)
  else if c = quote then (⟨.string, tokenText (lexString cs).1⟩, (lexString cs).2)
  else (⟨(lexSymbol c cs).1, []⟩, (lexSymbol c cs).2)

def lexNext (src : List UInt8) : SqlToken × List UInt8 :=
  match src.dropWhile isSpace with
  | [] => (⟨.eof, []⟩, [])
  | c :: cs => lexToken c cs

/-- The first tokens of the text, at most so many and up to its end. -/
def firstTokens : ℕ → List UInt8 → List SqlToken
  | 0, _ => []
  | n + 1, src =>
    if (lexNext src).1.kind = .eof then []
    else (lexNext src).1 :: firstTokens n (lexNext src).2

/-- Every token takes a character, so these are all. -/
def sqlTokens (src : List UInt8) : List SqlToken := firstTokens src.length src

lemma singleSymbol_ne_eof : singleSymbol c ≠ .eof := by
  simp only [singleSymbol, lookup_cons, lookup_nil]
  repeat' split
  all_goals simp

lemma lexSymbol_ne_eof : (lexSymbol c cs).1 ≠ .eof := by
  unfold lexSymbol
  split
  · grind [pairSymbol, Option.bind_eq_some_iff]
  · exact singleSymbol_ne_eof

lemma wordKind_ne_eof : wordKind text ≠ .eof := by
  unfold wordKind
  dsimp only
  split <;> simp

lemma lexToken_ne_eof : (lexToken c cs).1.kind ≠ .eof := by
  unfold lexToken
  split_ifs
  · simp
  · simp
  · exact wordKind_ne_eof
  · simp
  · exact lexSymbol_ne_eof

lemma lexNumber_suffix : (lexNumber src).2 <:+ src.dropWhile isDigit := by
  unfold lexNumber
  dsimp only
  split_ifs
  · exact (dropWhile_suffix _).trans (tail_suffix _)
  · exact suffix_rfl

lemma lexString_suffix : (lexString src).2 <:+ src := by
  fun_induction lexString src with
  | case1 => exact suffix_rfl
  | case2 => exact nil_suffix
  | case3 _ ih => exact (ih.trans (suffix_cons _ _)).trans (suffix_cons _ _)
  | case4 => exact suffix_cons _ _
  | case5 _ _ _ ih => exact ih.trans (suffix_cons _ _)

lemma lexToken_suffix (c : UInt8) (cs : List UInt8) : (lexToken c cs).2 <:+ cs := by
  unfold lexToken
  split_ifs with hdigit hminus hword hquote
  · grind [dropWhile_cons, lexNumber_suffix, dropWhile_suffix]
  · exact lexNumber_suffix.trans (dropWhile_suffix _)
  · rw [dropWhile_cons, if_pos hword]
    exact dropWhile_suffix _
  · exact lexString_suffix
  · grind [lexSymbol, tail_suffix]

lemma lexNext_blank (h : src.dropWhile isSpace = []) : lexNext src = (⟨.eof, []⟩, []) := by
  unfold lexNext
  rw [h]

lemma lexNext_token (h : src.dropWhile isSpace = c :: cs) : lexNext src = lexToken c cs := by
  unfold lexNext
  rw [h]

lemma firstTokens_of_le (h : src.length ≤ n) : firstTokens n src = sqlTokens src := by
  suffices ∀ m, src.length ≤ m → firstTokens n src = firstTokens m src from this _ le_rfl
  induction n generalizing src with
  | zero =>
    intro m hm
    have hnil : src = [] := length_eq_zero_iff.1 (Nat.le_zero.1 h)
    subst hnil
    cases m with
    | zero | succ => rfl
  | succ n ih =>
    intro m hm
    rcases hdrop : src.dropWhile isSpace with _ | ⟨c, cs⟩
    · cases m with
      | zero | succ => simp [firstTokens, lexNext_blank hdrop]
    have hle := (dropWhile_suffix isSpace (l := src)).length_le
    have hrest := (lexToken_suffix c cs).length_le
    rw [hdrop, length_cons] at hle
    obtain ⟨m, rfl⟩ : ∃ k, m = k + 1 := ⟨m - 1, by omega⟩
    rw [firstTokens, firstTokens, lexNext_token hdrop, if_neg lexToken_ne_eof,
      if_neg lexToken_ne_eof, ih (by omega) m (by omega)]

lemma sqlTokens_blank (h : src.dropWhile isSpace = []) : sqlTokens src = [] := by
  rw [← firstTokens_of_le (Nat.le_succ src.length), firstTokens, lexNext_blank h, if_pos rfl]

lemma sqlTokens_token (h : src.dropWhile isSpace = c :: cs) :
    sqlTokens src = (lexToken c cs).1 :: sqlTokens (lexToken c cs).2 := by
  have hle := (dropWhile_suffix isSpace (l := src)).length_le
  have hrest := (lexToken_suffix c cs).length_le
  rw [h, length_cons] at hle
  rw [← firstTokens_of_le (Nat.le_succ src.length), firstTokens, lexNext_token h,
    if_neg lexToken_ne_eof, firstTokens_of_le (by omega)]

lemma sqlTokens_dropWhile : sqlTokens (src.dropWhile isSpace) = sqlTokens src := by
  have hidem : (src.dropWhile isSpace).dropWhile isSpace = src.dropWhile isSpace :=
    dropWhile_idempotent _ _
  cases h : src.dropWhile isSpace with
  | nil => rw [sqlTokens_blank h, sqlTokens_blank rfl]
  | cons => rw [sqlTokens_token h, sqlTokens_token (h ▸ hidem.trans h)]

lemma charIsIdent_of_isDigit (h : isDigit b) : charIsIdent b := by
  unfold charIsIdent
  unfold isDigit at h
  simp [h]

/-- Where the lexer is: between two tokens, or in one with what it has of it. -/
inductive LexState
  | gap
  | word (w : List UInt8)
  | int (n : List UInt8)
  | frac (n : List UInt8)
  | opened (s : List UInt8)
  /-- Behind a quote that closes the literal, unless another one follows. -/
  | quoted (s : List UInt8)
  | symbol (c : UInt8)
  | pair (k : SqlTokenKind)
  deriving DecidableEq

namespace LexState

/-- The token that the state stands for if no more comes. -/
def pending : LexState → List SqlToken
  | gap => []
  | word w => [⟨wordKind (tokenText w), tokenText w⟩]
  | int n | frac n => [⟨.number, tokenText n⟩]
  | opened s | quoted s => [⟨.string, tokenText s⟩]
  | symbol c => [⟨singleSymbol c, []⟩]
  | pair k => [⟨k, []⟩]

def start (b : UInt8) : LexState :=
  if isSpace b then gap
  else if isDigit b then int [b]
  else if charIsIdent b then word [b]
  else if b = quote then opened []
  else symbol b

/-- The same token with one more character, if it takes it. -/
def goesOn : LexState → UInt8 → Option LexState
  | gap, _ => none
  | word w, b => if charIsIdent b then some (word (w ++ [b])) else none
  | int n, b =>
    if isDigit b then some (int (n ++ [b])) else if b = point then some (frac (n ++ [b])) else none
  | frac n, b => if isDigit b then some (frac (n ++ [b])) else none
  | opened s, b => some (if b = quote then quoted s else opened (s ++ [b]))
  | quoted s, b => if b = quote then some (opened (s ++ [quote])) else none
  | symbol c, b =>
    if c = minusSign && isDigit b then some (int [c, b]) else (pairSymbol c b).map pair
  | pair _, _ => none

def step (st : LexState) (b : UInt8) : LexState := (st.goesOn b).getD (start b)

def after (st : LexState) (text : List UInt8) : LexState := text.foldl step st

/-- The tokens that end before the last character of the text. -/
def ended : LexState → List UInt8 → List SqlToken
  | _, [] => []
  | st, b :: bs => (if (st.goesOn b).isSome then [] else st.pending) ++ ended (st.step b) bs

def tokens (st : LexState) (text : List UInt8) : List SqlToken :=
  st.ended text ++ (st.after text).pending

variable {st : LexState} {n bs : List UInt8}

lemma after_append (v w : List UInt8) : st.after (v ++ w) = (st.after v).after w := foldl_append

lemma ended_append (v w : List UInt8) :
    st.ended (v ++ w) = st.ended v ++ (st.after v).ended w := by
  induction v generalizing st with
  | nil => rfl
  | cons b v ih => rw [cons_append, ended, ended, ih, append_assoc, after, after, foldl_cons]

lemma tokens_append (v w : List UInt8) :
    st.tokens (v ++ w) = st.ended v ++ (st.after v).tokens w := by
  unfold tokens
  rw [ended_append, after_append, append_assoc]

lemma tokens_on (h : st.goesOn b = some t) : st.tokens (b :: bs) = t.tokens bs := by
  have hstep : st.step b = t := by
    unfold step
    rw [h]
    rfl
  unfold tokens
  rw [ended, h, after, foldl_cons, hstep]
  rfl

lemma tokens_end (h : st.goesOn b = none) :
    st.tokens (b :: bs) = st.pending ++ gap.tokens (b :: bs) := by
  have hstep : st.step b = gap.step b := by
    unfold step
    rw [h]
    rfl
  unfold tokens
  rw [ended, ended, h, after, after, foldl_cons, foldl_cons, hstep]
  simp [goesOn, pending]

lemma tokens_gap : gap.tokens (b :: bs) = (start b).tokens bs := rfl

/-- A token that takes all characters of a kind. -/
lemma tokens_while {f : List UInt8 → LexState} {p : UInt8 → Bool}
    (hon : ∀ n b, (f n).goesOn b = if p b then some (f (n ++ [b])) else none) :
    (f n).tokens bs = (f (n ++ bs.takeWhile p)).pending ++ gap.tokens (bs.dropWhile p) := by
  induction bs generalizing n with
  | nil =>
    have hgap : gap.pending = [] := rfl
    simp [tokens, ended, after, hgap]
  | cons b bs ih =>
    by_cases hb : p b
    · rw [tokens_on ((hon n b).trans (if_pos hb)), ih]
      simp [hb]
    · rw [tokens_end ((hon n b).trans (if_neg hb))]
      simp [hb]

lemma tokens_word :
    (word n).tokens bs = ⟨wordKind (tokenText (n ++ bs.takeWhile charIsIdent)),
      tokenText (n ++ bs.takeWhile charIsIdent)⟩ :: gap.tokens (bs.dropWhile charIsIdent) :=
  tokens_while (f := word) fun _ _ => rfl

lemma tokens_frac : (frac n).tokens bs =
    ⟨.number, tokenText (n ++ bs.takeWhile isDigit)⟩ :: gap.tokens (bs.dropWhile isDigit) :=
  tokens_while (f := frac) fun _ _ => rfl

lemma lexNumber_cons (hb : isDigit b) :
    lexNumber (b :: bs) = (b :: (lexNumber bs).1, (lexNumber bs).2) := by
  unfold lexNumber
  simp only [takeWhile_cons, dropWhile_cons, hb, if_true]
  split_ifs <;> rfl

lemma tokens_int : (int n).tokens bs =
    ⟨.number, tokenText (n ++ (lexNumber bs).1)⟩ :: gap.tokens (lexNumber bs).2 := by
  induction bs generalizing n with
  | nil => simp [tokens, ended, after, pending, lexNumber]
  | cons b bs ih =>
    by_cases hb : isDigit b
    · rw [tokens_on (t := int (n ++ [b])) (by simp [goesOn, hb]), ih, lexNumber_cons hb]
      simp
    by_cases hpoint : b = point
    · subst hpoint
      rw [tokens_on (t := frac (n ++ [point])) (by simp [goesOn, hb]), tokens_frac]
      simp [lexNumber, hb]
    · rw [tokens_end (by simp [goesOn, hb, hpoint])]
      simp [pending, lexNumber, hb, hpoint]

lemma tokens_opened : (opened n).tokens bs =
    ⟨.string, tokenText (n ++ (lexString bs).1)⟩ :: gap.tokens (lexString bs).2 := by
  fun_induction lexString bs generalizing n with
  | case1 => simp [tokens, ended, after, pending]
  | case2 =>
    rw [tokens_on (t := quoted n) (by simp [goesOn])]
    simp [tokens, ended, after, pending]
  | case3 bs ih =>
    rw [tokens_on (t := quoted n) (by simp [goesOn]),
      tokens_on (t := opened (n ++ [quote])) (by simp [goesOn]), ih]
    simp
  | case4 b bs hb =>
    rw [tokens_on (t := quoted n) (by simp [goesOn]), tokens_end (by simp [goesOn, hb])]
    simp [pending]
  | case5 b bs hb ih =>
    rw [tokens_on (t := opened (n ++ [b])) (by simp [goesOn, hb]), ih]
    simp

lemma tokens_symbol (h : (decide (c = minusSign) && bs.head?.any isDigit) = false) :
    (symbol c).tokens bs = ⟨(lexSymbol c bs).1, []⟩ :: gap.tokens (lexSymbol c bs).2 := by
  rcases bs with _ | ⟨b, bs⟩
  · simp [tokens, ended, after, pending, lexSymbol]
  have hminus : (decide (c = minusSign) && isDigit b) = false := h
  rcases hpair : pairSymbol c b with _ | k
  · rw [tokens_end (by simp [goesOn, hminus, hpair])]
    simp [pending, lexSymbol, hpair]
  · rw [tokens_on (t := pair k) (by simp [goesOn, hminus, hpair])]
    have hlex : lexSymbol c (b :: bs) = (k, bs) := by simp [lexSymbol, hpair]
    rw [hlex]
    cases bs with
    | nil => rfl
    | cons b bs => rw [tokens_end rfl, pending, singleton_append]

lemma tokens_start (hspace : isSpace c = false) :
    (start c).tokens cs = (lexToken c cs).1 :: gap.tokens (lexToken c cs).2 := by
  unfold start lexToken
  rw [hspace, if_neg Bool.false_ne_true]
  by_cases hdigit : isDigit c
  · rw [if_pos hdigit, if_pos hdigit, tokens_int, lexNumber_cons hdigit]
    rfl
  rw [if_neg hdigit, if_neg hdigit]
  by_cases hsign : (decide (c = minusSign) && cs.head?.any isDigit)
  · have hminus : c = minusSign := by simpa using (Bool.and_eq_true_iff.1 hsign).1
    subst hminus
    rw [if_pos hsign]
    rcases cs with _ | ⟨b, bs⟩
    · cases hsign
    have hb : isDigit b := hsign
    change (symbol minusSign).tokens (b :: bs) = _
    rw [tokens_on (t := int [minusSign, b]) (by simp [goesOn, hb]), tokens_int, lexNumber_cons hb]
    rfl
  rw [if_neg hsign]
  by_cases hident : charIsIdent c
  · rw [if_pos hident, if_pos hident, tokens_word]
    simp [hident]
  rw [if_neg hident, if_neg hident]
  by_cases hquote : c = quote
  · rw [if_pos hquote, if_pos hquote, tokens_opened, nil_append]
  · rw [if_neg hquote, if_neg hquote, tokens_symbol (by simpa using hsign)]

end LexState

theorem sqlTokens_eq_tokens (text : List UInt8) : sqlTokens text = LexState.gap.tokens text := by
  induction hn : text.length using Nat.strong_induction_on generalizing text with
  | _ n ih =>
    subst hn
    rcases text with _ | ⟨b, bs⟩
    · rfl
    cases hspace : isSpace b with
    | true =>
      have hdrop : sqlTokens (b :: bs) = sqlTokens bs := by
        rw [← sqlTokens_dropWhile, dropWhile_cons, if_pos hspace, sqlTokens_dropWhile]
      rw [hdrop, ih bs.length (Nat.lt_succ_self _) bs rfl, LexState.tokens_gap, LexState.start,
        if_pos hspace]
    | false =>
      have hdrop : (b :: bs).dropWhile isSpace = b :: bs := by simp [hspace]
      have hlt := Nat.lt_succ_of_le (lexToken_suffix b bs).length_le
      rw [sqlTokens_token hdrop, ih _ hlt _ rfl, LexState.tokens_gap, LexState.tokens_start hspace]

end AeroSLS.Sql
