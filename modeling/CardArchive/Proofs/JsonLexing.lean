import CardArchive.Json.Token

/-!
# The characters of tokens

The rules by which characters write tokens, next to the scanner that takes them one by one. A text
is scanned into exactly the tokens that the rules allow: what is still to come of it is explained by
the state of the scanner.
-/

namespace CardArchive.Json

/-- What may stand between quotes: a backslash takes the next character with it, and no other quote
is left. -/
inductive Quotable : List Char → Prop where
  | nil : Quotable []
  | plain {c : Char} {rest : List Char} (hquote : c ≠ '"') (hslash : c ≠ '\\')
    (h : Quotable rest) : Quotable (c :: rest)
  | escape (d : Char) {rest : List Char} (h : Quotable rest) : Quotable ('\\' :: d :: rest)

/-- The characters write the tokens, with white space between them or not. A word goes on as far as
it can. -/
inductive Writes : List Char → List Token → Prop where
  | nil : Writes [] []
  | space {c : Char} {cs : List Char} {ts : List Token} (hc : Token.isSpace c = true)
    (h : Writes cs ts) : Writes (c :: cs) ts
  | punctuation {c : Char} {t : Token} {cs : List Char} {ts : List Token}
    (hc : Token.punctuation? c = some t) (h : Writes cs ts) : Writes (c :: cs) (t :: ts)
  | word {c : Char} {w cs : List Char} {ts : List Token} (hc : Token.inWord c = true)
    (hw : ∀ d ∈ w, Token.inWord d = true) (hend : ∀ d ∈ cs.head?, Token.inWord d = false)
    (h : Writes cs ts) : Writes (c :: (w ++ cs)) (.word (c :: w) :: ts)
  | text {body s cs : List Char} {ts : List Token} (hbody : Quotable body)
    (hs : unescape body = some s) (h : Writes cs ts) :
    Writes ('"' :: (body ++ '"' :: cs)) (.text s :: ts)

namespace Scanner

/-- The characters that are still to come complete what is under way and write the tokens. -/
def Completes : Scanning → List Char → List Token → Prop
  | .between, cs, ts => Writes cs ts
  | .word seen, cs, ts => ∃ w rest more, cs = w ++ rest ∧ (∀ d ∈ w, Token.inWord d = true) ∧
      (∀ d ∈ rest.head?, Token.inWord d = false) ∧ Writes rest more ∧
      ts = .word (seen.reverse ++ w) :: more
  | .text seen, cs, ts => ∃ body rest s more, cs = body ++ '"' :: rest ∧ Quotable body ∧
      unescape (seen.reverse ++ body) = some s ∧ Writes rest more ∧ ts = .text s :: more
  | .escaped seen, cs, ts => ∃ d body rest s more, cs = d :: (body ++ '"' :: rest) ∧
      Quotable body ∧ unescape (seen.reverse ++ d :: body) = some s ∧ Writes rest more ∧
      ts = .text s :: more

/-! ## The first character of a token -/

variable {c : Char} {cs : List Char} {ts : List Token}

theorem isSpace_iff : Token.isSpace c = true ↔ c = ' ' ∨ c = '\n' ∨ c = '\r' ∨ c = '\t' := by
  simp [Token.isSpace, or_assoc]

/-- White space begins no token. With the next lemma, the ways in which a token begins exclude each
other. -/
theorem not_begins_of_isSpace (h : Token.isSpace c = true) :
    c ≠ '"' ∧ Token.inWord c = false ∧ Token.punctuation? c = none := by
  rcases isSpace_iff.mp h with rfl | rfl | rfl | rfl <;> decide

theorem not_begins_of_punctuation {t : Token} (h : Token.punctuation? c = some t) :
    Token.isSpace c = false ∧ c ≠ '"' ∧ Token.inWord c = false := by
  unfold Token.punctuation? at h
  split at h
  all_goals first | decide | cases h

theorem writes_of_isSpace (h : Token.isSpace c = true) :
    Writes (c :: cs) ts ↔ Writes cs ts := by
  obtain ⟨hquote, hword, hpunctuation⟩ := not_begins_of_isSpace h
  constructor
  · intro hw
    cases hw with
    | space _ hw => exact hw
    | punctuation hc => rw [hpunctuation] at hc; cases hc
    | word hc => rw [hword] at hc; cases hc
    | text => exact absurd rfl hquote
  · exact .space h

/-- Behind the first quote, the rules for a text and the scanner with an empty text agree. -/
theorem writes_quote : Writes ('"' :: cs) ts ↔ Completes (.text []) cs ts := by
  constructor
  · intro hw
    cases hw with
    | space hc => exact absurd hc (by decide)
    | punctuation hc => cases hc
    | word hc => exact absurd hc (by decide)
    | text hbody hs hw => exact ⟨_, _, _, _, rfl, hbody, hs, hw, rfl⟩
  · rintro ⟨body, rest, s, more, rfl, hbody, hs, hw, rfl⟩
    exact .text hbody hs hw

/-- A word is under way as soon as its first character is there. -/
theorem writes_of_inWord (h : Token.inWord c = true) :
    Writes (c :: cs) ts ↔ Completes (.word [c]) cs ts := by
  constructor
  · intro hw
    cases hw with
    | space hc => rw [(not_begins_of_isSpace hc).2.1] at h; cases h
    | punctuation hc => rw [(not_begins_of_punctuation hc).2.2] at h; cases h
    | word _ hall hend hw => exact ⟨_, _, _, rfl, hall, hend, hw, rfl⟩
    | text => exact absurd h (by decide)
  · rintro ⟨w, rest, more, rfl, hall, hend, hw, rfl⟩
    exact .word h hall hend hw

/-- What is no space, quote or character of a word is punctuation, or no token begins there at
all. -/
theorem writes_of_other (hspace : Token.isSpace c = false) (hquote : c ≠ '"')
    (hword : Token.inWord c = false) :
    Writes (c :: cs) ts ↔
      ∃ t more, Token.punctuation? c = some t ∧ Writes cs more ∧ ts = t :: more := by
  constructor
  · intro hw
    cases hw with
    | space hc => rw [hspace] at hc; cases hc
    | punctuation hc hw => exact ⟨_, _, hc, hw, rfl⟩
    | word hc => rw [hword] at hc; cases hc
    | text => exact absurd rfl hquote
  · rintro ⟨t, more, hc, hw, rfl⟩
    exact .punctuation hc hw

/-! ## One more character -/

variable {seen : List Char}

/-- A word takes every character that it can. -/
theorem completes_word_of_inWord (h : Token.inWord c = true) :
    Completes (.word seen) (c :: cs) ts ↔ Completes (.word (c :: seen)) cs ts := by
  constructor
  · rintro ⟨w, rest, more, hcs, hall, hend, hw, rfl⟩
    cases w with
    | nil =>
      cases hcs
      rw [hend c rfl] at h
      cases h
    | cons d w =>
      cases hcs
      refine ⟨w, rest, more, rfl, (List.forall_mem_cons.mp hall).2, hend, hw, ?_⟩
      rw [List.reverse_cons, List.append_cons]
  · rintro ⟨w, rest, more, rfl, hall, hend, hw, rfl⟩
    refine ⟨c :: w, rest, more, rfl, List.forall_mem_cons.mpr ⟨h, hall⟩, hend, hw, ?_⟩
    rw [List.append_cons, ← List.reverse_cons]

/-- A word ends where the next character is none of its own, or where there is none. -/
theorem completes_word_of_not_inWord (h : ∀ d ∈ cs.head?, Token.inWord d = false) :
    Completes (.word seen) cs ts ↔ ∃ more, Writes cs more ∧ ts = .word seen.reverse :: more := by
  constructor
  · rintro ⟨w, rest, more, hcs, hall, hend, hw, rfl⟩
    cases w with
    | nil =>
      cases hcs
      exact ⟨more, hw, by rw [List.append_nil]⟩
    | cons d w =>
      cases hcs
      have hd := h d rfl
      rw [hall d List.mem_cons_self] at hd
      cases hd
  · rintro ⟨more, hw, rfl⟩
    exact ⟨[], cs, more, rfl, List.forall_mem_nil _, h, hw, by rw [List.append_nil]⟩

/-- The first quote that no backslash takes with it ends the text. -/
theorem completes_text_quote :
    Completes (.text seen) ('"' :: cs) ts ↔
      ∃ s more, unescape seen.reverse = some s ∧ Writes cs more ∧ ts = .text s :: more := by
  constructor
  · rintro ⟨body, rest, s, more, hcs, hbody, hs, hw, rfl⟩
    cases hbody with
    | nil =>
      cases hcs
      rw [List.append_nil] at hs
      exact ⟨s, more, hs, hw, rfl⟩
    | plain hquote => exact absurd (List.cons.inj hcs).1.symm hquote
    | escape => cases hcs
  · rintro ⟨s, more, hs, hw, rfl⟩
    exact ⟨[], cs, s, more, rfl, .nil, by rw [List.append_nil, hs], hw, rfl⟩

/-- A backslash is kept with the text: it is the decoding that gives it a meaning. -/
theorem completes_text_slash :
    Completes (.text seen) ('\\' :: cs) ts ↔ Completes (.escaped ('\\' :: seen)) cs ts := by
  constructor
  · rintro ⟨body, rest, s, more, hcs, hbody, hs, hw, rfl⟩
    cases hbody with
    | nil => cases hcs
    | plain _ hslash => exact absurd (List.cons.inj hcs).1.symm hslash
    | escape d hbody =>
      cases hcs
      rw [List.append_cons, ← List.reverse_cons] at hs
      exact ⟨d, _, rest, s, more, rfl, hbody, hs, hw, rfl⟩
  · rintro ⟨d, body, rest, s, more, rfl, hbody, hs, hw, rfl⟩
    rw [List.reverse_cons, ← List.append_cons] at hs
    exact ⟨_, rest, s, more, rfl, .escape d hbody, hs, hw, rfl⟩

theorem completes_text_plain (hquote : c ≠ '"') (hslash : c ≠ '\\') :
    Completes (.text seen) (c :: cs) ts ↔ Completes (.text (c :: seen)) cs ts := by
  constructor
  · rintro ⟨body, rest, s, more, hcs, hbody, hs, hw, rfl⟩
    cases hbody with
    | nil => exact absurd (List.cons.inj hcs).1 hquote
    | plain _ _ hbody =>
      cases hcs
      rw [List.append_cons, ← List.reverse_cons] at hs
      exact ⟨_, rest, s, more, rfl, hbody, hs, hw, rfl⟩
    | escape => exact absurd (List.cons.inj hcs).1 hslash
  · rintro ⟨body, rest, s, more, rfl, hbody, hs, hw, rfl⟩
    rw [List.reverse_cons, ← List.append_cons] at hs
    exact ⟨_, rest, s, more, rfl, .plain hquote hslash hbody, hs, hw, rfl⟩

/-- Behind a backslash, a quote is a character like any other. -/
theorem completes_escaped :
    Completes (.escaped seen) (c :: cs) ts ↔ Completes (.text (c :: seen)) cs ts := by
  constructor
  · rintro ⟨d, body, rest, s, more, hcs, hbody, hs, hw, rfl⟩
    cases hcs
    rw [List.append_cons, ← List.reverse_cons] at hs
    exact ⟨body, rest, s, more, rfl, hbody, hs, hw, rfl⟩
  · rintro ⟨body, rest, s, more, rfl, hbody, hs, hw, rfl⟩
    rw [List.reverse_cons, ← List.append_cons] at hs
    exact ⟨c, body, rest, s, more, rfl, hbody, hs, hw, rfl⟩

/-! ## All characters -/

/-- The tokens of a text of which something has been scanned. -/
def scan? (state : Scanner) (cs : List Char) : Option (List Token) :=
  (cs.foldlM feed state).bind finish

theorem scan?_cons (state : Scanner) (c : Char) (cs : List Char) :
    state.scan? (c :: cs) = (state.feed c).bind (scan? · cs) := by
  rw [scan?, List.foldlM_cons]
  cases state.feed c <;> rfl

/-- The scanner comes to the end with the tokens that the characters write. -/
def Finishes (scanning : Scanning) (cs : List Char) : Prop :=
  ∀ tokens all, scan? ⟨scanning, tokens⟩ cs = some all ↔
    ∃ ts, all = tokens.reverse ++ ts ∧ Completes scanning cs ts

/-- A character that no token has begun before begins one. -/
theorem scan?_begin {tokens all : List Token} (h : ∀ scanning, Finishes scanning cs) :
    (begin tokens c).bind (scan? · cs) = some all ↔
      ∃ ts, all = tokens.reverse ++ ts ∧ Writes (c :: cs) ts := by
  rw [begin]
  split
  · next hspace => simp only [Option.bind_some, h .between _ _, writes_of_isSpace hspace]; rfl
  · next hspace =>
    split
    · next hquote =>
      subst hquote
      simp only [Option.bind_some, h (.text []) _ _, writes_quote]
    · next hquote =>
      split
      · next hword => simp only [Option.bind_some, h (.word [c]) _ _, writes_of_inWord hword]
      · next hword =>
        simp only [writes_of_other (Bool.eq_false_iff.mpr hspace) hquote
          (Bool.eq_false_iff.mpr hword), Option.bind_map, Option.bind_eq_some_iff,
          Function.comp, h .between _ _, Completes]
        constructor
        · rintro ⟨t, ht, ts, rfl, hw⟩
          exact ⟨t :: ts, by rw [List.reverse_cons, ← List.append_cons], t, ts, ht, hw, rfl⟩
        · rintro ⟨ts, rfl, t, more, ht, hw, rfl⟩
          exact ⟨t, ht, more, by rw [List.reverse_cons, ← List.append_cons], hw⟩

/-- At the end, a word is complete and a text is not. -/
theorem finishes_nil (scanning : Scanning) : Finishes scanning [] := by
  intro tokens all
  show finish ⟨scanning, tokens⟩ = some all ↔ _
  cases scanning with
  | between =>
    constructor
    · intro h
      cases h
      exact ⟨[], (List.append_nil _).symm, .nil⟩
    · rintro ⟨ts, rfl, hw⟩
      cases hw
      rw [finish, List.append_nil]
  | word seen =>
    have hend : ∀ d ∈ ([] : List Char).head?, Token.inWord d = false := by rintro d ⟨⟩
    simp only [completes_word_of_not_inWord hend, finish, Option.some.injEq]
    constructor
    · rintro rfl
      exact ⟨_, List.reverse_cons, [], .nil, rfl⟩
    · rintro ⟨ts, rfl, more, hw, rfl⟩
      cases hw
      exact List.reverse_cons
  | text seen =>
    -- a text whose closing quote is missing is no token
    constructor
    · intro h
      cases h
    · rintro ⟨_, -, body, _, _, _, hcs, -⟩
      cases body <;> cases hcs
  | escaped seen =>
    constructor
    · intro h
      cases h
    · rintro ⟨_, -, _, _, _, _, _, hcs, -⟩
      cases hcs

/-- By induction on the characters, for all states of the scanner at once: each lemma above is one
step. -/
theorem finishes (scanning : Scanning) (cs : List Char) : Finishes scanning cs := by
  induction cs generalizing scanning with
  | nil => exact finishes_nil scanning
  | cons c cs ih =>
    intro tokens all
    rw [scan?_cons]
    cases scanning with
    | between => exact scan?_begin ih
    | word seen =>
      -- the word goes on with `c`, or it ends before `c`, which begins a token
      rw [feed]
      split
      · next hword =>
        simp only [Option.bind_some, ih _ _ _, completes_word_of_inWord hword]
      · next hword =>
        have hend : ∀ d ∈ (c :: cs).head?, Token.inWord d = false := by
          rintro d ⟨⟩
          exact Bool.eq_false_iff.mpr hword
        rw [scan?_begin ih]
        simp only [completes_word_of_not_inWord hend]
        constructor
        · rintro ⟨ts, rfl, hw⟩
          exact ⟨_, by rw [List.reverse_cons, ← List.append_cons], ts, hw, rfl⟩
        · rintro ⟨_, rfl, more, hw, rfl⟩
          exact ⟨more, by rw [List.reverse_cons, ← List.append_cons], hw⟩
    | text seen =>
      -- a quote ends the text, and a backslash takes the next character with it
      rw [feed]
      split
      · next hquote =>
        subst hquote
        simp only [Option.bind_map, Option.bind_eq_some_iff, Function.comp, ih _ _ _,
          completes_text_quote]
        constructor
        · rintro ⟨s, hs, ts, rfl, hw⟩
          exact ⟨_, by rw [List.reverse_cons, ← List.append_cons], s, ts, hs, hw, rfl⟩
        · rintro ⟨_, rfl, s, more, hs, hw, rfl⟩
          exact ⟨s, hs, more, by rw [List.reverse_cons, ← List.append_cons], hw⟩
      · next hquote =>
        split
        · next hslash =>
          subst hslash
          simp only [Option.bind_some, ih _ _ _, completes_text_slash]
        · next hslash =>
          simp only [Option.bind_some, ih _ _ _, completes_text_plain hquote hslash]
    | escaped seen =>
      simp only [feed, Option.bind_some, ih _ _ _, completes_escaped]

end Scanner

/-- A text is scanned into the tokens that it writes, and every other text is refused. -/
theorem tokens?_eq_some_iff {cs : List Char} {ts : List Token} :
    tokens? cs = some ts ↔ Writes cs ts := by
  rw [tokens?]
  refine (Scanner.finishes .between cs [] ts).trans ⟨?_, fun h => ⟨ts, rfl, h⟩⟩
  rintro ⟨_, rfl, h⟩
  exact h

end CardArchive.Json
