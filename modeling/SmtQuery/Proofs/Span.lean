import Mathlib
import SmtQuery.Proofs.Bytes

/-!
# Tokens and what is between them

Layout does not matter to the lexer, and nothing but layout is lost on it.  A line is seen here as
a list of parts, each a gap with a token behind it, and a gap at the end of the line.

* `Apart.laidOut_render`: **layout does not matter**.  Tokens that are written with gaps between
  them are found again, each at the number of bytes in front of it.
* `LaidOut.gapped`: **nothing is lost**.  A line that the lexer accepts is made of its tokens, with
  gaps in front of them and behind.
* `CutInto`: what holds of the spans of the tokens on a line: they are disjoint and in order, and
  they begin and end between two characters.
* `tokenize_layout`: all of this, together with the walk over the bytes of a line.

## The last gap

A comment between two tokens is closed by a line feed, or the second token would belong to it.  Only
behind the last token may a comment go on to the end of the line.
-/

namespace SmtQuery
namespace Token

/-! ## Gaps -/

/-- Whether the text is made of separators, and of comments that are closed by a line feed. -/
inductive IsGap : List Char → Prop
  | nil : IsGap []
  | space {c : Char} {rest : List Char} (hc : isSpace c = true) (h : IsGap rest) :
      IsGap (c :: rest)
  | comment {note rest : List Char} (hnote : '\n' ∉ note) (h : IsGap rest) :
      IsGap (';' :: (note ++ '\n' :: rest))

/-- Whether the text is a gap, perhaps with a comment behind it that is not closed. -/
def IsLastGap (text : List Char) : Prop :=
  IsGap text ∨ ∃ gap note, IsGap gap ∧ '\n' ∉ note ∧ text = gap ++ ';' :: note

variable {position : ℕ} {gap text back : List Char} {tokens : List (ℕ × Token)}
  {parts : List (List Char × Token)}

theorem IsGap.append (h : IsGap gap) (htext : IsGap text) : IsGap (gap ++ text) := by
  induction h with
  | nil => exact htext
  | space hc _ ih => exact .space hc ih
  | comment hnote _ ih =>
    rw [List.cons_append, List.append_assoc, List.cons_append]
    exact .comment hnote ih

theorem IsGap.isLastGap_append (h : IsGap gap) (htext : IsLastGap text) :
    IsLastGap (gap ++ text) := by
  rcases htext with htext | ⟨front, note, hfront, hnote, rfl⟩
  · exact .inl (h.append htext)
  · exact .inr ⟨gap ++ front, note, h.append hfront, hnote, (List.append_assoc ..).symm⟩

/-- A gap ends the token in front of it, and so does the end of the text. -/
theorem IsGap.endsBefore (h : IsGap gap) (hrest : gap = [] → text = []) (token : Token) :
    token.EndsBefore (gap ++ text) := by
  have hhead : ∀ c ∈ (gap ++ text).head?, isDelimiter c = true ∧ c ≠ '"' := by
    cases h with
    | nil =>
      rw [hrest rfl]
      exact fun c hc => absurd hc (by simp)
    | space hc _ =>
      rintro c ⟨⟩
      exact ⟨isDelimiter_of_isSpace hc, fun heq => absurd hc (by rw [heq]; decide)⟩
    | comment _ _ =>
      rintro c ⟨⟩
      exact ⟨rfl, by decide⟩
  cases token with
  | bare word => exact fun c hc => (hhead c hc).1
  | string inside => exact fun hquote => (hhead _ hquote).2 rfl
  | lparen | rparen | quoted _ => trivial

/-- A gap is passed over. -/
theorem IsGap.laidOut_append (h : IsGap gap)
    (htext : LaidOut (position + byteLength gap) text tokens) :
    LaidOut position (gap ++ text) tokens := by
  induction h generalizing position with
  | nil => exact htext
  | space hc _ ih =>
    rw [byteLength_cons, utf8Size_of_isSpace hc, ← Nat.add_assoc] at htext
    exact .space hc (ih htext)
  | @comment note rest hnote _ ih =>
    rw [byteLength_cons, byteLength_append, byteLength_cons, show Char.utf8Size ';' = 1 from rfl,
      show Char.utf8Size '\n' = 1 from rfl, ← Nat.add_assoc, ← Nat.add_assoc, ← Nat.add_assoc]
      at htext
    rw [List.cons_append, List.append_assoc, List.cons_append]
    exact .comment hnote (fun c hc => (Option.some.inj hc).symm) (.space rfl (ih htext))

/-! ## Parts -/

/-- The text of the parts, each a gap and a token, with a last gap behind them. -/
def render : List (List Char × Token) → List Char → List Char
  | [], back => back
  | (gap, token) :: parts, back => gap ++ (token.spelling ++ render parts back)

/-- The tokens of the parts, each with the number of bytes in front of it, on a line that starts
with the given text. -/
def locate (front : List Char) : List (List Char × Token) → List (ℕ × Token)
  | [] => []
  | (gap, token) :: parts =>
    ((String.ofList (front ++ gap)).utf8ByteSize, token) ::
      locate (front ++ gap ++ token.spelling) parts

/-- Whether the tokens of the parts can be told apart: they have a spelling of their own, and there
are gaps between them. -/
structure Apart (parts : List (List Char × Token)) (back : List Char) : Prop where
  /-- Each token is one that the lexer can produce. -/
  wellFormed : ∀ part ∈ parts, part.2.WellFormed
  /-- What is in front of each token is a gap. -/
  isGap : ∀ part ∈ parts, IsGap part.1
  /-- Only the gap in front of the first token may be empty. -/
  between : ∀ part ∈ parts.tail, part.1 ≠ []
  /-- What is behind the last token is a gap. -/
  last : IsGap back

/-- The offset behind a token. -/
def stop (located : ℕ × Token) : ℕ :=
  located.1 + (String.ofList located.2.spelling).utf8ByteSize

theorem size_utf8Encode (text : List Char) : text.utf8Encode.size = byteLength text := by
  rw [← length_utf8, List.utf8Encode, utf8, ByteArray.size, List.data_toByteArray,
    List.size_toArray]

theorem utf8ByteSize_ofList (text : List Char) :
    (String.ofList text).utf8ByteSize = byteLength text := by
  rw [← size_utf8Encode, ← String.size_toByteArray, String.toByteArray_ofList]

/-- What is behind the first part can be told apart as well. -/
theorem Apart.tail {part : List Char × Token} (h : Apart (part :: parts) back) :
    Apart parts back where
  wellFormed other hother := h.wellFormed other (List.mem_cons_of_mem _ hother)
  isGap other hother := h.isGap other (List.mem_cons_of_mem _ hother)
  between other hother := h.between other (List.mem_of_mem_tail hother)
  last := h.last

/-- A token ends in front of the parts behind it. -/
theorem Apart.endsBefore_render {part : List Char × Token} (h : Apart (part :: parts) back) :
    part.2.EndsBefore (render parts back) := by
  cases parts with
  | nil =>
    rw [render, ← List.append_nil back]
    exact h.last.endsBefore (fun _ => rfl) part.2
  | cons next parts =>
    have hmem : next ∈ (part :: next :: parts).tail := List.mem_cons_self
    exact (h.tail.isGap next List.mem_cons_self).endsBefore
      (fun hnil => absurd hnil (h.between next hmem)) part.2

/-- **Layout does not matter.** -/
theorem Apart.laidOut_render (h : Apart parts back) (front : List Char) :
    LaidOut (byteLength front) (render parts back) (locate front parts) := by
  induction parts generalizing front with
  | nil =>
    rw [render, locate, ← List.append_nil back]
    exact h.last.laidOut_append .nil
  | cons part parts ih =>
    obtain ⟨gap, token⟩ := part
    have hrest := ih h.tail (front ++ gap ++ token.spelling)
    rw [byteLength_append, byteLength_append] at hrest
    rw [render, locate, utf8ByteSize_ofList, byteLength_append]
    exact (h.isGap _ List.mem_cons_self).laidOut_append
      (.token (h.wellFormed _ List.mem_cons_self) h.endsBefore_render hrest)

/-! ## What a line is made of -/

/-- Whether the text is made of the tokens with gaps in front of them and behind, on a line that
starts with `front`. -/
def Gapped (front text : List Char) (tokens : List (ℕ × Token)) : Prop :=
  ∃ parts back, text = render parts back ∧ tokens = locate front parts ∧
    (∀ part ∈ parts, IsGap part.1) ∧ IsLastGap back

/-- A gap belongs to what is behind it. -/
theorem Gapped.of_gap {front : List Char} (hgap : IsGap gap)
    (h : Gapped (front ++ gap) text tokens) : Gapped front (gap ++ text) tokens := by
  obtain ⟨parts, back, rfl, rfl, hparts, hback⟩ := h
  cases parts with
  | nil => exact ⟨[], gap ++ back, rfl, rfl, hparts, hgap.isLastGap_append hback⟩
  | cons part parts =>
    obtain ⟨inner, token⟩ := part
    obtain ⟨hinner, hparts⟩ := List.forall_mem_cons.1 hparts
    refine ⟨(gap ++ inner, token) :: parts, back, ?_, ?_, ?_, hback⟩
    · rw [render, render, List.append_assoc]
    · rw [locate, locate, List.append_assoc]
    · exact List.forall_mem_cons.2 ⟨hgap.append hinner, hparts⟩

/-- A separator in front of a text can be left out. -/
theorem LaidOut.of_space {c : Char} (hc : isSpace c = true)
    (h : LaidOut position (c :: text) tokens) : LaidOut (position + 1) text tokens := by
  rw [← tokensFrom_eq_ok_iff, tokensFrom_space position hc] at h
  exact tokensFrom_eq_ok_iff.1 h

theorem LaidOut.eq_nil (h : LaidOut position [] tokens) : tokens = [] := by
  rw [← tokensFrom_eq_ok_iff, tokensFrom_nil] at h
  exact (Except.ok.inj h).symm

/-- **Nothing is lost.** -/
theorem LaidOut.gapped {front : List Char} (h : LaidOut (byteLength front) text tokens) :
    Gapped front text tokens := by
  -- A comment and the line feed behind it are one gap, so one step may use up two rules.
  induction hlength : text.length using Nat.strong_induction_on generalizing front text tokens with
  | h length ih =>
    generalize hposition : byteLength front = position at h
    cases h with
    | nil => exact ⟨[], [], rfl, rfl, fun part hpart => absurd hpart List.not_mem_nil, .inl .nil⟩
    | @space _ c rest _ hc hrest =>
      have hgap : IsGap [c] := .space hc .nil
      have hlt : rest.length < length := hlength ▸ Nat.lt_succ_self _
      refine Gapped.of_gap hgap (ih rest.length hlt ?_ rfl)
      rwa [byteLength_append, byteLength_cons, utf8Size_of_isSpace hc, hposition]
    | @comment _ note rest _ hnote hhead hrest =>
      cases rest with
      | nil =>
        obtain rfl := hrest.eq_nil
        refine ⟨[], _, rfl, rfl, fun part hpart => absurd hpart List.not_mem_nil, ?_⟩
        exact .inr ⟨[], note, .nil, hnote, by rw [List.append_nil, List.nil_append]⟩
      | cons c more =>
        obtain rfl := hhead c rfl
        have hgap : IsGap (';' :: (note ++ '\n' :: [])) := .comment hnote .nil
        have hsplit : ';' :: (note ++ '\n' :: more) = ';' :: (note ++ '\n' :: []) ++ more := by
          rw [List.cons_append, List.append_assoc, List.cons_append, List.nil_append]
        rw [hsplit] at hlength ⊢
        refine Gapped.of_gap hgap (ih more.length ?_ ?_ rfl)
        · rw [← hlength, List.length_append, List.length_cons]
          omega
        · have hmore := hrest.of_space rfl
          rwa [byteLength_append, byteLength_cons, byteLength_append, hposition, ← Nat.add_assoc,
            ← Nat.add_assoc]
    | @token _ token rest others htoken _ hrest =>
      have hne : token.spelling ≠ [] := fun hnil =>
        absurd (byteLength_spelling_pos htoken) (by rw [hnil]; decide)
      have hlt : rest.length < length := by
        rw [← hlength, List.length_append]
        exact Nat.lt_add_of_pos_left (List.length_pos_of_ne_nil hne)
      have hrest' : LaidOut (byteLength (front ++ token.spelling)) rest others := by
        rwa [byteLength_append, hposition]
      obtain ⟨parts, back, htext, hothers, hparts, hback⟩ := ih rest.length hlt hrest' rfl
      refine ⟨([], token) :: parts, back, ?_, ?_, ?_, hback⟩
      · rw [render, htext, List.nil_append]
      · rw [locate, hothers, utf8ByteSize_ofList, List.append_nil, hposition]
      · exact List.forall_mem_cons.2 ⟨.nil, hparts⟩

/-! ## Spans -/

/-- What holds of the tokens on a line that is cut into them. -/
structure CutInto (line : String) (tokens : List (ℕ × Token)) : Prop where
  /-- Each token is one that has a spelling of its own. -/
  wellFormed : ∀ t ∈ tokens, t.2.WellFormed
  /-- The spans are disjoint, and in the order of the tokens. -/
  increasing : tokens.Pairwise fun first second => stop first ≤ second.1
  /-- No span is empty. -/
  proper : ∀ t ∈ tokens, t.1 < stop t
  /-- Each span begins and ends between two characters. -/
  boundary : ∀ t ∈ tokens,
    String.Pos.Raw.IsValid line ⟨t.1⟩ ∧ String.Pos.Raw.IsValid line ⟨stop t⟩
  /-- The bytes of each span are the spelling of its token. -/
  covers : ∀ t ∈ tokens, line.toByteArray.extract t.1 (stop t) = t.2.spelling.utf8Encode
  /-- There are only gaps in front of the tokens and behind. -/
  gapped : Gapped [] line.toList tokens

/-- A position is between two characters if it is the number of bytes in front of one. -/
theorem isValid_of_toList {line : String} {front : List Char} (h : line.toList = front ++ back) :
    String.Pos.Raw.IsValid line ⟨byteLength front⟩ := by
  refine String.Pos.Raw.isValid_iff_exists_append.2
    ⟨String.ofList front, String.ofList back, ?_, ?_⟩
  · rw [← String.ofList_append, ← h, String.ofList_toList]
  · rw [← utf8ByteSize_ofList]
    rfl

/-- A token starts behind the ones in front of it. -/
theorem LaidOut.increasing (h : LaidOut position text tokens) :
    tokens.Pairwise fun first second => stop first ≤ second.1 := by
  induction h with
  | nil => exact .nil
  | space _ _ ih => exact ih
  | comment _ _ _ ih => exact ih
  | @token position token rest tokens _ _ hrest ih =>
    refine List.pairwise_cons.2 ⟨fun second hsecond => ?_, ih⟩
    obtain ⟨front, back, -, hstart⟩ := hrest.offset hsecond
    rw [stop, utf8ByteSize_ofList, hstart]
    exact Nat.le_add_right _ _

/-- **The spans of the tokens on a line.** -/
theorem cutInto_of_tokenize {line : String} (h : tokenize line.toList = .ok tokens) :
    CutInto line tokens := by
  have hlaid : LaidOut 0 line.toList tokens := tokensFrom_eq_ok_iff.1 h
  have hwell := wellFormed_of_tokensFrom h
  have hspan : ∀ t ∈ tokens, ∃ front back, line.toList = front ++ (t.2.spelling ++ back) ∧
      t.1 = byteLength front ∧ stop t = byteLength (front ++ t.2.spelling) := by
    intro t ht
    obtain ⟨front, back, hline, hstart⟩ := hlaid.offset ht
    rw [Nat.zero_add] at hstart
    refine ⟨front, back, hline, hstart, ?_⟩
    rw [stop, utf8ByteSize_ofList, hstart, byteLength_append]
  refine ⟨hwell, hlaid.increasing, fun t ht => ?_, fun t ht => ?_, fun t ht => ?_,
    LaidOut.gapped hlaid⟩
  · rw [stop, utf8ByteSize_ofList]
    exact Nat.lt_add_of_pos_right (byteLength_spelling_pos (hwell t ht))
  · obtain ⟨front, back, hline, hstart, hstop⟩ := hspan t ht
    have hbehind : line.toList = (front ++ t.2.spelling) ++ back := by rw [hline, List.append_assoc]
    rw [hstart, hstop]
    exact ⟨isValid_of_toList hline, isValid_of_toList hbehind⟩
  · obtain ⟨front, back, hline, hstart, hstop⟩ := hspan t ht
    rw [hstart, hstop, ← String.utf8Encode_toList, hline, List.utf8Encode_append,
      List.utf8Encode_append, byteLength_append]
    have hfront := ByteArray.extract_append_size_add' (i := 0) (j := byteLength t.2.spelling)
      (b := t.2.spelling.utf8Encode ++ back.utf8Encode) (size_utf8Encode front).symm
    rw [Nat.add_zero] at hfront
    rw [hfront, ByteArray.extract_append_eq_left (size_utf8Encode _).symm]

/-- **Layout does not matter, and nothing but layout is lost.**  Tokens that are written with gaps
between them are found where they are; the tokens that are found on a line are all that is on it but
for gaps; and the line can be walked by its bytes, since no slice is cut through a character. -/
theorem tokenize_layout :
    (∀ parts back, Apart parts back → tokenize (render parts back) = .ok (locate [] parts)) ∧
    (∀ (line : String) (tokens : List (ℕ × Token)), tokenize line.toList = .ok tokens →
      CutInto line tokens) ∧
    ∀ line : String,
      tokensOfBytes 0 line.toByteArray.data.toList = (tokenize line.toList).mapError some := by
  refine ⟨fun parts back h => ?_, fun line tokens h => cutInto_of_tokenize h, fun line => ?_⟩
  · exact tokensFrom_eq_ok_iff.2 (h.laidOut_render [])
  · rw [toList_data_toByteArray]
    exact tokensOfBytes_utf8 0 line.toList

/-- A word with a letter of two bytes, behind a comment, and a string with a quote inside. -/
theorem tokenize_layout_multibyte :
    Apart [([';', 'ü', '\n'], bare ['ß']), (['\t'], string ['é', '"'])] [' '] ∧
      tokenize ";ü\nß\t\"é\"\"\" ".toList =
        .ok [(4, bare ['ß']), (7, string ['é', '"'])] ∧
      CutInto ";ü\nß\t\"é\"\"\" " [(4, bare ['ß']), (7, string ['é', '"'])] ∧
      tokensOfBytes 0 (";ü\nß\t\"é\"\"\" ".toByteArray.data.toList) =
        .ok [(4, bare ['ß']), (7, string ['é', '"'])] := by
  have hword : (bare ['ß']).WellFormed :=
    ⟨List.cons_ne_nil _ _, List.forall_mem_singleton.2 rfl⟩
  have hcomment : IsGap [';', 'ü', '\n'] := @IsGap.comment ['ü'] [] (by decide) .nil
  have hparts : Apart [([';', 'ü', '\n'], bare ['ß']), (['\t'], string ['é', '"'])] [' '] := by
    refine ⟨?_, ?_, ?_, .space rfl .nil⟩
    · exact List.forall_mem_cons.2 ⟨hword, List.forall_mem_singleton.2 trivial⟩
    · exact List.forall_mem_cons.2 ⟨hcomment, List.forall_mem_singleton.2 (.space rfl .nil)⟩
    · exact List.forall_mem_singleton.2 (by decide)
  have hlocate : locate [] [([';', 'ü', '\n'], bare ['ß']), (['\t'], string ['é', '"'])] =
      [(4, bare ['ß']), (7, string ['é', '"'])] := by
    simp only [locate, utf8ByteSize_ofList]
    rfl
  have htokens : tokenize ";ü\nß\t\"é\"\"\" ".toList =
      .ok [(4, bare ['ß']), (7, string ['é', '"'])] := by
    have h := tokenize_layout.1 _ _ hparts
    rw [hlocate] at h
    exact h
  refine ⟨hparts, htokens, tokenize_layout.2.1 _ _ htokens, ?_⟩
  rw [tokenize_layout.2.2, htokens]
  rfl

end Token
end SmtQuery
