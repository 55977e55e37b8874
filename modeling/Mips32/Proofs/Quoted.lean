import Mathlib.Tactic.SplitIfs
import Mips32.Address
import Mips32.Proofs.Numeral

/-! # Reading quoted text back

    Quoted text is read from left to right.  Behind a backslash a character does
    not stand for itself, so a quote that was part of the text never ends it:
    `upToQuote`.  What is between the quotes spells the text, character by
    character, and each spelling ends by itself: `unescape`.

    Main statement: `Address.message_of_refusal`.  The refusal of a text as an
    address tells the text, whatever the text looks like. -/

namespace Mips32

namespace Quoted

/-- The characters in front of the first unescaped quote. -/
def upToQuote (escaped : Bool) : List Char → List Char
  | [] => []
  | c :: cs =>
    if c = '"' ∧ escaped = false then []
    else c :: upToQuote (decide (c = '\\') && !escaped) cs

/-- The character that a letter stands for behind a backslash. -/
def letter? : Char → Option Char
  | '0' => some '\x00'
  | 't' => some '\t'
  | 'r' => some '\r'
  | 'n' => some '\n'
  | '\\' => some '\\'
  | '"' => some '"'
  | _ => none

/-- The character with this code, in hexadecimal. -/
def ofCode? (digits : List Char) : Option Char :=
  (Numeral.ofDigits? 16 digits).bind fun n => if n.isValidChar then some (Char.ofNat n) else none

/-- Where reading stands: in the text, behind a backslash, in front of a code, or
    behind these digits of a code. -/
inductive Place
  | text
  | letter
  | brace
  | code (digits : List Char)

/-- The text that is spelled between quotes. -/
def unescape : Place → List Char → Option (List Char)
  | .text, [] => some []
  | .text, c :: cs =>
    if c = '\\' then unescape .letter cs else (unescape .text cs).map (c :: ·)
  | .letter, c :: cs =>
    if c = 'u' then unescape .brace cs
    else (letter? c).bind fun d => (unescape .text cs).map (d :: ·)
  | .brace, c :: cs => if c = '\x7b' then unescape (.code []) cs else none
  | .code digits, c :: cs =>
    if c = '\x7d' then (ofCode? digits).bind fun d => (unescape .text cs).map (d :: ·)
    else unescape (.code (digits ++ [c])) cs
  | _, [] => none

/-- How a character is spelled: by itself, by a letter, or by its code. -/
inductive Spelling (c : Char) : List Char → Prop
  | itself (hback : c ≠ '\\') (hquote : c ≠ '"') : Spelling c [c]
  | letter {l : Char} (h : letter? l = some c) : Spelling c ['\\', l]
  | code : Spelling c ('\\' :: 'u' :: '\x7b' :: (Numeral.digits 16 c.toNat ++ ['\x7d']))

variable {c : Char} {cs ds : List Char}

theorem spelling_escape (c : Char) : Spelling c (escape c) := by
  unfold escape
  split_ifs with hnul htab hreturn hline hback hquote hprintable
  · subst hnul
    exact .letter rfl
  · subst htab
    exact .letter rfl
  · subst hreturn
    exact .letter rfl
  · subst hline
    exact .letter rfl
  · subst hback
    exact .letter rfl
  · subst hquote
    exact .letter rfl
  · exact .itself hback hquote
  · exact .code

/-- A digit of a code is neither a quote, nor a backslash, nor the end of the code. -/
theorem isAlphanum_of_mem_code {d : Char} (h : d ∈ Numeral.digits 16 c.toNat) :
    d.isAlphanum = true :=
  Numeral.isAlphanum_of_mem_digits (by decide) (by decide) h

/-! ## The closing quote -/

/-- Whether looking for the closing quote goes past these characters, and comes out
    of them as it came in. -/
def Passed (cs : List Char) : Prop :=
  ∀ rest, upToQuote false (cs ++ rest) = cs ++ upToQuote false rest

theorem passed_nil : Passed [] := fun _ => rfl

theorem Passed.append (hcs : Passed cs) (hds : Passed ds) : Passed (cs ++ ds) := by
  intro rest
  rw [List.append_assoc, hcs, hds, List.append_assoc]

theorem passed_plain (hback : c ≠ '\\') (hquote : c ≠ '"') : Passed [c] := by
  intro rest
  simp [upToQuote, hback, hquote]

/-- Behind a backslash, a quote is passed as well. -/
theorem passed_escaped (l : Char) : Passed ['\\', l] := by
  intro rest
  simp [upToQuote]

theorem passed_of_isAlphanum (h : ∀ d ∈ cs, d.isAlphanum = true) : Passed cs := by
  induction cs with
  | nil => exact passed_nil
  | cons d cs ih =>
      rw [List.forall_mem_cons] at h
      obtain ⟨hd, hcs⟩ := h
      have hone : Passed [d] := by
        refine passed_plain ?_ ?_
        · rintro rfl
          cases hd
        · rintro rfl
          cases hd
      exact hone.append (ih hcs)

theorem Spelling.passed (h : Spelling c cs) : Passed cs := by
  cases h with
  | itself hback hquote => exact passed_plain hback hquote
  | @letter l h => exact passed_escaped l
  | code =>
      have hopen : Passed ['\x7b'] := passed_plain (by decide) (by decide)
      have hclose : Passed ['\x7d'] := passed_plain (by decide) (by decide)
      have hdigits := passed_of_isAlphanum fun d => isAlphanum_of_mem_code (c := c) (d := d)
      exact (passed_escaped 'u').append (hopen.append (hdigits.append hclose))

theorem passed_flatMap (s : List Char) : Passed (s.flatMap escape) := by
  induction s with
  | nil => exact passed_nil
  | cons c s ih =>
      rw [List.flatMap_cons]
      exact (spelling_escape c).passed.append ih

/-- **THE FIRST UNESCAPED QUOTE IS THE CLOSING ONE.** -/
theorem upToQuote_flatMap (s rest : List Char) :
    upToQuote false (s.flatMap escape ++ '"' :: rest) = s.flatMap escape := by
  rw [passed_flatMap]
  exact List.append_nil _

/-! ## The text between the quotes -/

/-- A code is read up to its closing brace. -/
theorem unescape_code (h : '\x7d' ∉ ds) (digits rest : List Char) :
    unescape (.code digits) (ds ++ '\x7d' :: rest)
      = (ofCode? (digits ++ ds)).bind fun d => (unescape .text rest).map (d :: ·) := by
  induction ds generalizing digits with
  | nil => rw [List.nil_append, unescape, if_pos rfl, List.append_nil]
  | cons d ds ih =>
      rw [List.mem_cons, not_or] at h
      obtain ⟨hd, hds⟩ := h
      rw [List.cons_append, unescape, if_neg (Ne.symm hd), ih hds, List.append_assoc,
        List.singleton_append]

theorem ofCode?_digits (c : Char) : ofCode? (Numeral.digits 16 c.toNat) = some c := by
  have hvalid : c.toNat.isValidChar := c.valid
  rw [ofCode?, Numeral.ofDigits?_digits (by decide) (by decide), Option.bind_some,
    if_pos hvalid, Char.ofNat_toNat]

/-- **A SPELLING ENDS BY ITSELF**: whatever is behind it, one character is read. -/
theorem Spelling.unescape (h : Spelling c cs) (rest : List Char) :
    unescape .text (cs ++ rest) = (unescape .text rest).map (c :: ·) := by
  cases h with
  | itself hback hquote => rw [List.singleton_append, Quoted.unescape, if_neg hback]
  | @letter l h =>
      have hcode : l ≠ 'u' := by
        rintro rfl
        cases h
      rw [List.cons_append, List.singleton_append, Quoted.unescape, if_pos rfl, Quoted.unescape,
        if_neg hcode, h, Option.bind_some]
  | code =>
      have hclose : '\x7d' ∉ Numeral.digits 16 c.toNat := fun hmem =>
        absurd (isAlphanum_of_mem_code hmem) (by decide)
      calc Quoted.unescape .text ('\\' :: 'u' :: '\x7b' ::
            (Numeral.digits 16 c.toNat ++ ['\x7d']) ++ rest)
          = Quoted.unescape (.code []) (Numeral.digits 16 c.toNat ++ '\x7d' :: rest) := by
            simp [Quoted.unescape]
        _ = (Quoted.unescape .text rest).map (c :: ·) := by
            rw [unescape_code hclose, List.nil_append, ofCode?_digits, Option.bind_some]

/-- **QUOTED TEXT READS BACK.** -/
theorem unescape_flatMap (s : List Char) : unescape .text (s.flatMap escape) = some s := by
  induction s with
  | nil => rfl
  | cons c s ih =>
      rw [List.flatMap_cons, (spelling_escape c).unescape, ih, Option.map_some]

/-! ## Words with a quotation -/

/-- Whether words show this text between quotes, with other words around it: what
    is behind the opening quote is cut at its first unescaped quote, and what is in
    front of the cut spells the text. -/
def Shows (words before text behind : List Char) : Prop :=
  ∃ body, words = before ++ '"' :: (body ++ '"' :: behind) ∧
    upToQuote false (body ++ '"' :: behind) = body ∧ unescape .text body = some text

theorem shows_encode (before text behind : List Char) :
    Shows (before ++ encode text ++ behind) before text behind := by
  refine ⟨text.flatMap escape, ?_, upToQuote_flatMap text behind, unescape_flatMap text⟩
  simp only [encode, List.append_assoc, List.cons_append, List.nil_append]

/-- **A QUOTATION IS READ IN ONE WAY**, whatever is said behind it. -/
theorem Shows.text_inj {words before text text' behind behind' : List Char}
    (h : Shows words before text behind) (h' : Shows words before text' behind') : text = text' := by
  obtain ⟨body, hwords, hcut, htext⟩ := h
  obtain ⟨body', hwords', hcut', htext'⟩ := h'
  have hquoted := List.tail_eq_of_cons_eq
    (List.append_cancel_left (hwords.symm.trans hwords'))
  have hbody : body = body' := by rw [← hcut, hquoted, hcut']
  rw [hbody, htext'] at htext
  exact (Option.some.inj htext).symm

end Quoted

namespace Address

theorem text_of_read {text : String} {e : Fault} (h : read text = .error e) : e.text = text := by
  rw [read] at h
  split at h
  · cases h
  · cases h
    rfl

theorem shows_of_read {text : String} {e : Fault} (h : read text = .error e) :
    Quoted.Shows e.message.toList "invalid address ".toList text.toList
      (": " ++ e.reason.message).toList := by
  obtain rfl := text_of_read h
  have hmessage : e.message.toList = "invalid address ".toList ++ Quoted.encode e.text.toList
      ++ (": " ++ e.reason.message).toList := by
    show ("invalid address " ++ Quoted.quote e.text ++ ": " ++ e.reason.message).toList = _
    simp only [Quoted.quote, String.toList_append, String.toList_ofList, List.append_assoc]
  rw [hmessage]
  exact Quoted.shows_encode _ _ _

/-- **A REFUSAL TELLS THE TEXT**, between the quotes and whatever the reason is.
    So two texts are never refused in the same words. -/
theorem message_of_refusal :
    (∀ text e, read text = .error e →
      Quoted.Shows e.message.toList "invalid address ".toList text.toList
        (": " ++ e.reason.message).toList) ∧
    (∀ s t e e', read s = .error e → read t = .error e' → s ≠ t → e.message ≠ e'.message) := by
  refine ⟨fun text e => shows_of_read, ?_⟩
  intro s t e e' hs ht hne hmessage
  have hshows := shows_of_read hs
  rw [hmessage] at hshows
  exact hne (String.toList_inj.mp (hshows.text_inj (shows_of_read ht)))

/-- A text that goes on like the refusal of another one. -/
theorem message_of_refusal_imitation :
    let imitation := "x\": invalid digit found in string"
    ∃ e e', read "x" = .error e ∧ read imitation = .error e' ∧
      Quoted.Shows e'.message.toList "invalid address ".toList imitation.toList
        (": " ++ e'.reason.message).toList ∧
      e.message ≠ e'.message := by
  intro imitation
  have hplain : read "x" = .error ⟨"x", .invalidDigit⟩ := rfl
  have himitation : read "x\": invalid digit found in string"
      = .error ⟨"x\": invalid digit found in string", .invalidDigit⟩ := rfl
  obtain ⟨hshows, hdiffer⟩ := message_of_refusal
  exact ⟨_, _, hplain, himitation, hshows _ _ himitation,
    hdiffer _ _ _ _ hplain himitation (by decide)⟩

end Address

end Mips32
