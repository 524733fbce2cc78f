import Mathlib
import SmtQuery.Proofs.Layout

/-!
# A line walked by its bytes

Nothing on a line stops a word, a symbol, a string or a comment but a handful of ASCII characters.
So the line need not be decoded before it is cut: the walk can go over its UTF-8 bytes, look at
each byte as if it was a character by itself, and decode only the slices that end up in tokens.
`tokensOfBytes` is this walk.  It has one more way to fail than the lexer: a slice that begins or
ends inside of a character is no text.

* `EndsAtAscii.run_utf8`: a run over bytes stops where the run over characters does, since no byte
  of a character outside of ASCII is an ASCII character.
* `quotedSlice_utf8`, `stringSlice_utf8`, `scanSlice_utf8`: what one token takes from the bytes.
* `tokensOfBytes_utf8`: **the walk over the bytes is the lexer**, offsets and errors included.  No
  slice is ever cut through a character.

## Which slices are taken

Behind an opening bar or quote the rest of the line is sliced off to look for the closing one, and
then the part in front of that; a string is taken piece by piece, up to each quote.  A slice with no
bytes in it is a text wherever it lies, but it is only taken where the rest of the line has been
sliced off before.
-/

namespace SmtQuery
namespace Token

/-! ## Bytes and characters -/

/-- The bytes of a text in UTF-8. -/
def utf8 (text : List Char) : List UInt8 := text.flatMap String.utf8EncodeChar

theorem utf8_nil : utf8 [] = [] := rfl

theorem utf8_cons (c : Char) (text : List Char) :
    utf8 (c :: text) = String.utf8EncodeChar c ++ utf8 text := rfl

theorem utf8_append (front back : List Char) : utf8 (front ++ back) = utf8 front ++ utf8 back :=
  List.flatMap_append

theorem length_utf8 (text : List Char) : (utf8 text).length = byteLength text := by
  induction text with
  | nil => rfl
  | cons c text ih =>
    rw [utf8_cons, List.length_append, String.length_utf8EncodeChar, ih, byteLength_cons]

/-- The bytes of a string are the bytes of its characters. -/
theorem toList_data_toByteArray (line : String) :
    line.toByteArray.data.toList = utf8 line.toList := by
  rw [← String.utf8Encode_toList, List.utf8Encode, List.toList_data_toByteArray, utf8]

/-- An ASCII character is a byte by itself. -/
theorem utf8_cons_of_ascii {c : Char} (h : c.utf8Size = 1) (text : List Char) :
    utf8 (c :: text) = c.toUInt8 :: utf8 text :=
  congrArg (· ++ utf8 text) (String.utf8EncodeChar_eq_singleton h)

theorem ofUInt8_toUInt8 {c : Char} (h : c.utf8Size = 1) : Char.ofUInt8 c.toUInt8 = c := by
  have hle : c.val.toNat ≤ 127 := UInt32.le_iff_toNat_le.1 (Char.utf8Size_eq_one_iff.1 h)
  have hval : c.val.toUInt8.toUInt32.toNat = c.val.toNat := by
    rw [UInt8.toNat_toUInt32, UInt32.toNat_toUInt8]
    omega
  exact Char.ext (UInt32.toNat_inj.1 hval)

/-- Every byte of a character outside of ASCII has its high bit set. -/
theorem le_of_mem_utf8EncodeChar {c : Char} (h : c.utf8Size ≠ 1) {b : UInt8}
    (hb : b ∈ String.utf8EncodeChar c) : 128 ≤ b.toNat := by
  have hc : ¬ c.val.toNat ≤ 127 := fun hle =>
    h (Char.utf8Size_eq_one_iff.2 (UInt32.le_iff_toNat_le.2 hle))
  unfold String.utf8EncodeChar at hb
  simp only [if_neg hc] at hb
  split at hb
  · simp only [List.mem_cons, List.not_mem_nil, or_false] at hb
    rcases hb with rfl | rfl <;> rw [UInt8.toNat_ofNat'] <;> omega
  split at hb
  · simp only [List.mem_cons, List.not_mem_nil, or_false] at hb
    rcases hb with rfl | rfl | rfl <;> rw [UInt8.toNat_ofNat'] <;> omega
  · simp only [List.mem_cons, List.not_mem_nil, or_false] at hb
    rcases hb with rfl | rfl | rfl | rfl <;> rw [UInt8.toNat_ofNat'] <;> omega

/-! ## Runs -/

/-- Whether a run of such characters ends at ASCII characters only. -/
def EndsAtAscii (go : Char → Bool) : Prop := ∀ c, go c = false → c.utf8Size = 1

variable {go : Char → Bool}

/-- **A byte is to a run what its character is.** -/
theorem EndsAtAscii.apply_ofUInt8 (hgo : EndsAtAscii go) {c : Char} {b : UInt8}
    (hb : b ∈ String.utf8EncodeChar c) : go (Char.ofUInt8 b) = go c := by
  by_cases hc : c.utf8Size = 1
  · rw [String.utf8EncodeChar_eq_singleton hc, List.mem_singleton] at hb
    rw [hb, show Char.ofUInt8 c.val.toUInt8 = c from ofUInt8_toUInt8 hc]
  · have hsize : (Char.ofUInt8 b).utf8Size ≠ 1 := fun hone => by
      have hle : b.toNat ≤ 127 := UInt32.le_iff_toNat_le.1 (Char.utf8Size_eq_one_iff.1 hone)
      have hge := le_of_mem_utf8EncodeChar hc hb
      omega
    rw [Bool.eq_true_of_not_eq_false fun h => hc (hgo c h),
      Bool.eq_true_of_not_eq_false fun h => hsize (hgo _ h)]

/-- The bytes of a text start with a byte of its first character. -/
theorem exists_utf8_cons (c : Char) (text : List Char) :
    ∃ b tail, b ∈ String.utf8EncodeChar c ∧ utf8 (c :: text) = b :: tail := by
  obtain ⟨b, more, hb⟩ := List.exists_cons_of_ne_nil (String.utf8EncodeChar_ne_nil (c := c))
  exact ⟨b, more ++ utf8 text, hb ▸ List.mem_cons_self, by rw [utf8_cons, hb, List.cons_append]⟩

/-- **A run over bytes stops where the run over characters does.** -/
theorem EndsAtAscii.run_utf8 (hgo : EndsAtAscii go) (text : List Char) :
    ((utf8 text).takeWhile fun b => go (Char.ofUInt8 b)) = utf8 (text.takeWhile go) ∧
      ((utf8 text).dropWhile fun b => go (Char.ofUInt8 b)) = utf8 (text.dropWhile go) := by
  induction text with
  | nil => exact ⟨rfl, rfl⟩
  | cons c text ih =>
    cases hc : go c with
    | true =>
      have hpos : ∀ b ∈ String.utf8EncodeChar c, go (Char.ofUInt8 b) = true :=
        fun b hb => (hgo.apply_ofUInt8 hb).trans hc
      rw [utf8_cons, List.takeWhile_append_of_pos hpos, List.dropWhile_append_of_pos hpos, ih.1,
        ih.2, List.takeWhile_cons_of_pos hc, List.dropWhile_cons_of_pos hc, utf8_cons]
      exact ⟨rfl, rfl⟩
    | false =>
      have hsize := hgo c hc
      have hneg : ¬ go (Char.ofUInt8 c.toUInt8) = true := by
        rw [ofUInt8_toUInt8 hsize, hc]
        exact Bool.false_ne_true
      have hc' : ¬ go c = true := Bool.eq_false_iff.1 hc
      rw [List.takeWhile_cons_of_neg hc', List.dropWhile_cons_of_neg hc', utf8_cons_of_ascii hsize,
        List.takeWhile_cons_of_neg (p := fun b => go (Char.ofUInt8 b)) hneg,
        List.dropWhile_cons_of_neg (p := fun b => go (Char.ofUInt8 b)) hneg]
      exact ⟨rfl, rfl⟩

theorem endsAtAscii_ne {c : Char} (h : c.utf8Size = 1) : EndsAtAscii fun d => decide (d ≠ c) := by
  intro d hd
  rwa [show d = c by simpa using hd]

/-- A text starts with an ASCII character if its bytes do. -/
theorem head?_utf8_eq_some_iff {c : Char} (hc : c.utf8Size = 1) {text : List Char} :
    (utf8 text).head?.map Char.ofUInt8 = some c ↔ text.head? = some c := by
  cases text with
  | nil => simp [utf8_nil]
  | cons d text =>
    obtain ⟨b, tail, hb, htext⟩ := exists_utf8_cons d text
    have hgo : decide (Char.ofUInt8 b ≠ c) = decide (d ≠ c) := (endsAtAscii_ne hc).apply_ofUInt8 hb
    rw [htext]
    simpa using hgo

theorem endsAtAscii_not_isSpace : EndsAtAscii fun d => !isSpace d := by
  intro d hd
  exact utf8Size_of_isSpace (by simpa using hd)

theorem endsAtAscii_not_isDelimiter : EndsAtAscii fun d => !isDelimiter d := by
  intro d hd
  have hdelim : isDelimiter d = true := by simpa using hd
  simp only [isDelimiter, Bool.or_eq_true, decide_eq_true_eq] at hdelim
  rcases hdelim with ((((hspace | rfl) | rfl) | rfl) | rfl) | rfl
  · exact utf8Size_of_isSpace hspace
  all_goals rfl

/-! ## The walk -/

/-- The text of a slice.  The error `none` is that of a slice that cuts a character in two. -/
def slice (bytes : List UInt8) : Except (Option ReadError) (List Char) :=
  match bytes.toByteArray.utf8Decode? with
  | some text => .ok text.toList
  | none => .error none

/-- The symbol behind an opening bar, and the number of bytes up to behind the closing bar. -/
def quotedSlice (position : ℕ) (bytes : List UInt8) :
    Except (Option ReadError) (List Char × ℕ) := do
  let _ ← slice bytes
  match bytes.dropWhile (Char.ofUInt8 · ≠ '|') with
  | [] => .error (some (.unterminatedSymbol position))
  | _ :: _ =>
    let name ← slice (bytes.takeWhile (Char.ofUInt8 · ≠ '|'))
    return (name, (bytes.takeWhile (Char.ofUInt8 · ≠ '|')).length + 1)

/-- The string behind an opening quote, and the number of bytes up to behind the closing quote. -/
def stringSlice (position : ℕ) (bytes : List UInt8) :
    Except (Option ReadError) (List Char × ℕ) := do
  let _ ← slice bytes
  match h : bytes.dropWhile (Char.ofUInt8 · ≠ '"') with
  | [] => .error (some (.unterminatedString position))
  | _ :: after =>
    let piece ← slice (bytes.takeWhile (Char.ofUInt8 · ≠ '"'))
    let size := (bytes.takeWhile (Char.ofUInt8 · ≠ '"')).length
    if after.head?.map Char.ofUInt8 = some '"' then
      let (text, n) ← stringSlice position after.tail
      return (piece ++ '"' :: text, size + 2 + n)
    else return (piece, size + 1)
termination_by bytes.length
decreasing_by
  have hle := (List.dropWhile_sublist (l := bytes) (Char.ofUInt8 · ≠ '"')).length_le
  rw [h, List.length_cons] at hle
  rw [List.length_tail]
  omega

/-- The token that starts with the byte, and the number of its bytes behind that one. -/
def scanSlice (position : ℕ) (b : UInt8) (rest : List UInt8) :
    Except (Option ReadError) (Token × ℕ) :=
  if Char.ofUInt8 b = '(' then .ok (lparen, 0)
  else if Char.ofUInt8 b = ')' then .ok (rparen, 0)
  else if Char.ofUInt8 b = '|' then
    (quotedSlice position rest).map fun (name, n) => (quoted name, n)
  else if Char.ofUInt8 b = '"' then
    (stringSlice position rest).map fun (text, n) => (string text, n)
  else
    let more := rest.takeWhile fun b => !isDelimiter (Char.ofUInt8 b)
    (slice (b :: more)).map fun word => (bare word, more.length)

/-- The tokens of the bytes, the first of which lies at the given offset. -/
def tokensOfBytes (position : ℕ) : List UInt8 → Except (Option ReadError) (List (ℕ × Token))
  | [] => .ok []
  | b :: rest =>
    if isSpace (Char.ofUInt8 b) then tokensOfBytes (position + 1) rest
    else if Char.ofUInt8 b = ';' then
      tokensOfBytes (position + 1 + (rest.takeWhile (Char.ofUInt8 · ≠ '\n')).length)
        (rest.dropWhile (Char.ofUInt8 · ≠ '\n'))
    else
      match scanSlice position b rest with
      | .error e => .error e
      | .ok (token, n) =>
        (tokensOfBytes (position + 1 + n) (rest.drop n)).map ((position, token) :: ·)
termination_by bytes => bytes.length
decreasing_by
  · exact Nat.lt_succ_self _
  · exact Nat.lt_succ_of_le (List.dropWhile_sublist _).length_le
  · exact Nat.lt_succ_of_le (List.drop_sublist n rest).length_le

/-! ## One token -/

/-- A slice that holds whole characters is a text. -/
theorem slice_utf8 (text : List Char) : slice (utf8 text) = .ok text := by
  have h : (utf8 text).toByteArray.utf8Decode? = some text.toArray := List.utf8Decode?_utf8Encode
  rw [slice, h]

theorem quotedSlice_utf8 (position : ℕ) (text : List Char) :
    quotedSlice position (utf8 text) =
      match readQuoted? text with
      | some (name, _) => .ok (name, byteLength name + 1)
      | none => .error (some (.unterminatedSymbol position)) := by
  obtain ⟨htake, hdrop⟩ := (endsAtAscii_ne (c := '|') rfl).run_utf8 text
  rw [quotedSlice, slice_utf8, htake, hdrop, readQuoted?, slice_utf8, length_utf8]
  cases hback : text.dropWhile (fun d => decide (d ≠ '|')) with
  | nil => rfl
  | cons c after =>
    obtain ⟨b, tail, -, htext⟩ := exists_utf8_cons c after
    rw [htext]
    rfl

/-- A piece without a quote in it is read as it stands. -/
theorem readString?_append {piece : List Char} (h : '"' ∉ piece) (text : List Char) :
    readString? (piece ++ text) =
      (readString? text).map fun (inside, rest) => (piece ++ inside, rest) := by
  induction piece with
  | nil => exact Option.map_id'.symm
  | cons c piece ih =>
    obtain ⟨hc, hpiece⟩ := not_or.1 (List.mem_cons.not.1 h)
    rw [List.cons_append, readString?, ih hpiece]
    · cases readString? text <;> rfl
    · exact fun _ hq _ => hc hq.symm
    · exact fun hq => hc hq.symm

theorem doubleQuotes_append (front back : List Char) :
    doubleQuotes (front ++ back) = doubleQuotes front ++ doubleQuotes back := by
  induction front with
  | nil => rfl
  | cons c front ih =>
    rw [List.cons_append, doubleQuotes, doubleQuotes, ih]
    split <;> rfl

theorem doubleQuotes_of_notMem {piece : List Char} (h : '"' ∉ piece) :
    doubleQuotes piece = piece := by
  induction piece with
  | nil => rfl
  | cons c piece ih =>
    obtain ⟨hc, hpiece⟩ := not_or.1 (List.mem_cons.not.1 h)
    rw [doubleQuotes, if_neg (Ne.symm hc), ih hpiece]

/-- One piece of a string is taken up to a quote, which closes the string if no other follows. -/
theorem stringSlice_piece (position : ℕ) {piece : List Char} (h : '"' ∉ piece)
    (after : List Char) :
    stringSlice position (utf8 (piece ++ '"' :: after)) =
      if after.head? = some '"' then
        (stringSlice position (utf8 after.tail)).map fun (inside, n) =>
          (piece ++ '"' :: inside, byteLength piece + 2 + n)
      else .ok (piece, byteLength piece + 1) := by
  have hgo := ne_of_notMem h
  obtain ⟨htake, hdrop⟩ := (endsAtAscii_ne (c := '"') rfl).run_utf8 (piece ++ '"' :: after)
  rw [List.takeWhile_append_of_pos hgo, List.takeWhile_cons_of_neg (by decide),
    List.append_nil] at htake
  rw [List.dropWhile_append_of_pos hgo, List.dropWhile_cons_of_neg (by decide),
    utf8_cons_of_ascii rfl] at hdrop
  rw [stringSlice, slice_utf8, htake, slice_utf8, length_utf8]
  simp only [bind, Except.bind, pure, Except.pure]
  split
  · next hbytes => exact absurd (hdrop.symm.trans hbytes) (by simp)
  · next b tail hbytes =>
    obtain ⟨-, rfl⟩ := List.cons.inj (hdrop.symm.trans hbytes)
    by_cases hquote : after.head? = some '"'
    · obtain ⟨more, rfl⟩ := List.head?_eq_some_iff.1 hquote
      rw [if_pos ((head?_utf8_eq_some_iff rfl).2 hquote), if_pos hquote, utf8_cons_of_ascii rfl]
      rfl
    · rw [if_neg fun hbyte => hquote ((head?_utf8_eq_some_iff rfl).1 hbyte), if_neg hquote]

/-- A string without a quote behind it is not closed. -/
theorem stringSlice_of_notMem (position : ℕ) {text : List Char} (h : '"' ∉ text) :
    stringSlice position (utf8 text) = .error (some (.unterminatedString position)) := by
  have hdrop := ((endsAtAscii_ne (c := '"') rfl).run_utf8 text).2
  rw [List.dropWhile_eq_nil_iff.2 (ne_of_notMem h)] at hdrop
  rw [stringSlice, slice_utf8]
  simp only [bind, Except.bind, pure, Except.pure]
  split
  · rfl
  · next hbytes => exact absurd (hdrop.symm.trans hbytes) (by simp [utf8_nil])

theorem stringSlice_utf8 (position : ℕ) (text : List Char) :
    stringSlice position (utf8 text) =
      match readString? text with
      | some (inside, _) => .ok (inside, byteLength (doubleQuotes inside) + 1)
      | none => .error (some (.unterminatedString position)) := by
  induction hlength : text.length using Nat.strong_induction_on generalizing text with
  | h length ih =>
    by_cases hmem : '"' ∈ text
    · obtain ⟨piece, after, rfl, hpiece⟩ := List.eq_append_cons_of_mem hmem
      rw [stringSlice_piece position hpiece, readString?_append hpiece]
      by_cases hquote : after.head? = some '"'
      · obtain ⟨more, rfl⟩ := List.head?_eq_some_iff.1 hquote
        have hlt : more.length < length := by
          rw [← hlength, List.length_append, List.length_cons, List.length_cons]
          omega
        have hmore := ih more.length hlt more rfl
        rw [if_pos hquote, List.tail_cons, hmore, readString?]
        cases readString? more with
        | none => rfl
        | some found =>
          have hquotes : byteLength (doubleQuotes (piece ++ '"' :: found.1)) =
              byteLength piece + 2 + byteLength (doubleQuotes found.1) := by
            rw [doubleQuotes_append, doubleQuotes_of_notMem hpiece, byteLength_append,
              doubleQuotes, if_pos rfl, byteLength_cons, byteLength_cons,
              show Char.utf8Size '"' = 1 from rfl]
            omega
          simp only [Option.map_some, Except.map, hquotes, Nat.add_assoc]
      · have hread : readString? ('"' :: after) = some ([], after) :=
          readString?_doubleQuotes [] hquote
        simp only [if_neg hquote, hread, Option.map_some, List.append_nil,
          doubleQuotes_of_notMem hpiece]
    · have hread := readString?_append hmem []
      rw [List.append_nil] at hread
      rw [stringSlice_of_notMem position hmem, hread]
      rfl

/-- **What a token takes from the bytes.** -/
theorem scanSlice_utf8 (position : ℕ) {c : Char} {text : List Char} {b : UInt8}
    {tail : List UInt8} (hspace : isSpace c = false) (hcomment : c ≠ ';')
    (hb : b ∈ String.utf8EncodeChar c) (hbytes : utf8 (c :: text) = b :: tail) :
    scanSlice position b tail =
      match scan position c text with
      | .ok (token, _) => .ok (token, byteLength token.spelling - 1)
      | .error e => .error (some e) := by
  cases hdelim : isDelimiter c with
  | true =>
    have hsize : c.utf8Size = 1 := endsAtAscii_not_isDelimiter c (congrArg not hdelim)
    obtain ⟨rfl, rfl⟩ := List.cons.inj ((utf8_cons_of_ascii hsize text).symm.trans hbytes)
    simp only [isDelimiter, hspace, hcomment, Bool.false_or, Bool.or_eq_true, decide_eq_true_eq,
      decide_false, Bool.or_false] at hdelim
    rcases hdelim with ((rfl | rfl) | rfl) | rfl
    · rfl
    · rfl
    · rw [scanSlice, ofUInt8_toUInt8 rfl, if_neg (by decide), if_neg (by decide), if_pos rfl,
        quotedSlice_utf8]
      cases hread : readQuoted? text with
      | none =>
        rw [scan_bar_eq_error position hread]
        rfl
      | some found =>
        rw [scan_bar position hread]
        simp only [Except.map, spelling, List.cons_append, byteLength_cons, byteLength_append,
          byteLength_nil, show Char.utf8Size '|' = 1 from rfl]
        congr 2
        omega
    · rw [scanSlice, ofUInt8_toUInt8 rfl, if_neg (by decide), if_neg (by decide),
        if_neg (by decide), if_pos rfl, stringSlice_utf8]
      cases hread : readString? text with
      | none =>
        rw [scan_quote_eq_error position hread]
        rfl
      | some found =>
        rw [scan_quote position hread]
        simp only [Except.map, spelling, stringSpelling, List.cons_append, byteLength_cons,
          byteLength_append, byteLength_nil, show Char.utf8Size '"' = 1 from rfl]
        congr 2
        omega
  | false =>
    have hne : ∀ {d : Char}, d.utf8Size = 1 → isDelimiter d = true → Char.ofUInt8 b ≠ d := by
      intro d hd hdelim'
      have hgo := (endsAtAscii_ne hd).apply_ofUInt8 hb
      simpa [ne_of_isDelimiter_eq_false hdelim hdelim'] using hgo
    have hgo : (!isDelimiter (Char.ofUInt8 b)) = true := by
      rw [endsAtAscii_not_isDelimiter.apply_ofUInt8 hb, hdelim]
      rfl
    have hmore := (endsAtAscii_not_isDelimiter.run_utf8 (c :: text)).1
    rw [hbytes, List.takeWhile_cons_of_pos (p := fun b => !isDelimiter (Char.ofUInt8 b)) hgo,
      List.takeWhile_cons_of_pos (p := fun d => !isDelimiter d) (congrArg not hdelim)] at hmore
    have hlength := congrArg List.length hmore
    rw [List.length_cons, length_utf8] at hlength
    rw [scanSlice, if_neg (hne rfl rfl), if_neg (hne rfl rfl), if_neg (hne rfl rfl),
      if_neg (hne rfl rfl), scan_bare position hdelim]
    simp only [hmore, slice_utf8, Except.map, spelling, ← hlength, Nat.add_sub_cancel]

/-- A token has a byte. -/
theorem byteLength_spelling_pos {token : Token} (h : token.WellFormed) :
    0 < byteLength token.spelling := by
  have hpos : ∀ (c : Char) (text : List Char), 0 < byteLength (c :: text) := fun c text =>
    Nat.lt_of_lt_of_le c.utf8Size_pos (Nat.le_add_right _ _)
  cases token with
  | bare word =>
    obtain ⟨c, text, rfl⟩ := List.exists_cons_of_ne_nil h.1
    exact hpos c text
  | lparen | rparen | quoted _ | string _ => exact hpos _ _

/-- One step of the walk at a character that starts a token. -/
theorem tokensOfBytes_cons {position : ℕ} {c : Char} {text : List Char} (hspace : isSpace c = false)
    (hcomment : c ≠ ';') :
    tokensOfBytes position (utf8 (c :: text)) =
      match scan position c text with
      | .ok (token, after) =>
        (tokensOfBytes (position + byteLength token.spelling) (utf8 after)).map
          ((position, token) :: ·)
      | .error e => .error (some e) := by
  obtain ⟨b, tail, hb, hbytes⟩ := exists_utf8_cons c text
  have hspace' : isSpace (Char.ofUInt8 b) = false := by
    simpa [hspace] using endsAtAscii_not_isSpace.apply_ofUInt8 hb
  have hcomment' : Char.ofUInt8 b ≠ ';' := by
    simpa [hcomment] using (endsAtAscii_ne (c := ';') rfl).apply_ofUInt8 hb
  rw [hbytes, tokensOfBytes, if_neg (Bool.eq_false_iff.1 hspace'), if_neg hcomment',
    scanSlice_utf8 position hspace hcomment hb hbytes]
  cases hscan : scan position c text with
  | error e => rfl
  | ok found =>
    obtain ⟨token, after⟩ := found
    obtain ⟨htext, -⟩ := eq_of_scan hscan
    -- The first byte has been looked at already, and a token has at least this one.
    obtain ⟨n, hn⟩ := Nat.exists_eq_add_one_of_ne_zero
      (byteLength_spelling_pos (wellFormed_of_scan hspace hcomment hscan)).ne'
    have hdrop : tail.drop n = utf8 after := by
      calc tail.drop n = (b :: tail).drop (n + 1) := rfl
        _ = (utf8 token.spelling ++ utf8 after).drop (n + 1) := by
          rw [← hbytes, htext, utf8_append]
        _ = utf8 after := List.drop_left' (by rw [length_utf8, hn])
    simp only [hn, Nat.add_sub_cancel, hdrop, Nat.add_assoc, Nat.add_comm 1 n]

/-- **The walk over the bytes of a text finds what the lexer finds.** -/
theorem tokensOfBytes_utf8 (position : ℕ) (text : List Char) :
    tokensOfBytes position (utf8 text) = (tokensFrom position text).mapError some := by
  fun_induction tokensFrom position text with
  | case1 position => rw [utf8_nil, tokensOfBytes]; rfl
  | case2 position c rest hspace ih =>
    have hsize := utf8Size_of_isSpace hspace
    rw [utf8_cons_of_ascii hsize, tokensOfBytes, ofUInt8_toUInt8 hsize, if_pos hspace, ih]
  | case3 position rest hspace ih =>
    obtain ⟨htake, hdrop⟩ := (endsAtAscii_ne (c := '\n') rfl).run_utf8 rest
    rw [utf8_cons_of_ascii rfl, tokensOfBytes, ofUInt8_toUInt8 rfl, if_neg hspace, if_pos rfl,
      htake, hdrop, length_utf8, ih]
  | case4 position c rest hspace hcomment e hscan =>
    rw [tokensOfBytes_cons (Bool.eq_false_iff.2 hspace) hcomment, hscan]
    rfl
  | case5 position c rest hspace hcomment token after hle hscan e htokens ih =>
    rw [tokensOfBytes_cons (Bool.eq_false_iff.2 hspace) hcomment, hscan]
    simp only [ih, htokens]
    rfl
  | case6 position c rest hspace hcomment token after hle hscan tokens htokens ih =>
    rw [tokensOfBytes_cons (Bool.eq_false_iff.2 hspace) hcomment, hscan]
    simp only [ih, htokens]
    rfl

/-- The walk does fail on bytes that are no text: a string that holds the letter ü in Latin-1. -/
example : tokensOfBytes 0 [0x28, 0x22, 0xfc, 0x22, 0x29] = .error none := by cbv

end Token
end SmtQuery
