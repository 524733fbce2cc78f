import Mathlib
import SmtQuery.Proofs.Lines

/-!
# Lines with nothing on them

Two parts of the library have a notion of an empty line.  For the reader a line is empty if it has
no token, and what stands between tokens is ASCII; for the decoder of replies a line is blank if all
its characters have the property White_Space, and it does not show such lines to the reader.

* `SExpr.read_eq_empty_iff`: the reader reports an empty line just where there is no token.
* `Token.tokenize_eq_nil_iff`: without a semicolon, these are the lines of separators.
* `Token.exists_bare_of_isBlank`: what else can stand on a blank line is words of blank characters.
* `Outcome.stops_of_modelOfLine`: a line that is not decoded ends the decoding where it stands.
* `Outcome.emptiness_agrees`: **where the two agree.**  They do on lines of separators, which make
  no difference to a reply; an empty line with a comment is shown to the reader and ends the
  decoding; and a line that the decoder drops holds no value in either sense.

## Why the wider class is harmless

A vertical tab or a no-break space is a word to the reader.  But a word is no list, and every value
comes in a list, so such a line would have nothing to give if it were read.
-/

namespace SmtQuery

/-! ## Blank characters -/

/-- What separates tokens is blank. -/
theorem Text.isBlank_of_isSpace {c : Char} (h : Token.isSpace c = true) : isBlank c = true := by
  simp only [Token.isSpace, Bool.or_eq_true, decide_eq_true_eq] at h
  rcases h with (((rfl | rfl) | rfl) | rfl) | rfl <;> decide

/-- The characters that are delimiters and do not separate tokens are not blank. -/
theorem Token.isDelimiter_eq_false_of_isBlank {c : Char} (hblank : Text.isBlank c = true)
    (hspace : isSpace c = false) : isDelimiter c = false := by
  have hne : ∀ d : Char, Text.isBlank d = false → decide (c = d) = false := by
    rintro d hd
    exact decide_eq_false fun heq => absurd (heq ▸ hblank) (by rw [hd]; decide)
  rw [isDelimiter, hspace, hne '(' (by decide), hne ')' (by decide), hne '|' (by decide),
    hne '"' (by decide), hne ';' (by decide)]
  rfl

/-- There is no comment on a blank line. -/
theorem Text.semicolon_notMem_of_isBlankLine {line : List Char} (h : isBlankLine line = true) :
    ';' ∉ line :=
  fun hmem => absurd (List.all_eq_true.1 h ';' hmem) (by decide)

/-! ## Lines without tokens -/

namespace Token

variable {position : ℕ} {text : List Char}

theorem tokensFrom_eq_nil_of_isSpace (h : ∀ c ∈ text, isSpace c = true) :
    tokensFrom position text = .ok [] := by
  induction text generalizing position with
  | nil => exact tokensFrom_nil position
  | cons c text ih =>
    rw [tokensFrom_space position (h c List.mem_cons_self)]
    exact ih fun d hd => h d (List.mem_cons_of_mem c hd)

/-- A text without tokens is made of separators and comments. -/
theorem LaidOut.isSpace_of_mem {tokens : List (ℕ × Token)} (h : LaidOut position text tokens)
    (hnone : tokens = []) (hcomment : ';' ∉ text) : ∀ c ∈ text, isSpace c = true := by
  induction h with
  | nil => exact fun c hc => absurd hc List.not_mem_nil
  | space hc _ ih =>
    refine List.forall_mem_cons.2 ⟨hc, ih hnone fun hmem => hcomment ?_⟩
    exact List.mem_cons_of_mem _ hmem
  | comment => exact absurd List.mem_cons_self hcomment
  | token => exact absurd hnone (by simp)

/-- **Without a comment**, a line has no token exactly if it consists of separators. -/
theorem tokenize_eq_nil_iff (hcomment : ';' ∉ text) :
    tokenize text = .ok [] ↔ ∀ c ∈ text, isSpace c = true :=
  ⟨fun h => (tokensFrom_eq_ok_iff.1 h).isSpace_of_mem rfl hcomment, tokensFrom_eq_nil_of_isSpace⟩

/-- **What stands on a blank line**: words of blank characters. -/
theorem exists_bare_of_isBlank (position : ℕ) (h : ∀ c ∈ text, Text.isBlank c = true) :
    ∃ tokens, tokensFrom position text = .ok tokens ∧ ∀ located ∈ tokens, ∃ word,
      located.2 = bare word ∧ ∀ c ∈ word, Text.isBlank c = true ∧ isSpace c = false := by
  fun_induction tokensFrom position text with
  | case1 => exact ⟨[], rfl, fun _ hmem => absurd hmem List.not_mem_nil⟩
  | case2 position c rest hspace ih => exact ih fun d hd => h d (List.mem_cons_of_mem c hd)
  | case3 position rest hspace ih => exact absurd (h ';' List.mem_cons_self) (by decide)
  | case4 position c rest hspace hc e hscan =>
    have hdelimiter := isDelimiter_eq_false_of_isBlank (h c List.mem_cons_self)
      (Bool.eq_false_iff.2 hspace)
    exact absurd (hscan.symm.trans (scan_bare position hdelimiter rest)) (by simp)
  | case5 position c rest hspace hc token after hle hscan e hrest ih =>
    obtain ⟨htext, -⟩ := eq_of_scan hscan
    obtain ⟨tokens, htokens, -⟩ := ih fun d hd => h d (htext ▸ List.mem_append_right _ hd)
    exact absurd (hrest.symm.trans htokens) (by simp)
  | case6 position c rest hspace hc token after hle hscan tokens htokens ih =>
    have hdelimiter := isDelimiter_eq_false_of_isBlank (h c List.mem_cons_self)
      (Bool.eq_false_iff.2 hspace)
    obtain ⟨htext, -⟩ := eq_of_scan hscan
    obtain ⟨tokens', htokens', hbare⟩ := ih fun d hd => h d (htext ▸ List.mem_append_right _ hd)
    obtain rfl := Except.ok.inj (htokens.symm.trans htokens')
    refine ⟨_, rfl, List.forall_mem_cons.2 ⟨?_, hbare⟩⟩
    -- the word goes on as long as there is no delimiter
    obtain ⟨rfl, -⟩ := Prod.mk.inj (Except.ok.inj
      (hscan.symm.trans (scan_bare position hdelimiter rest)))
    refine ⟨_, rfl, List.forall_mem_cons.2 ⟨⟨h c List.mem_cons_self, Bool.eq_false_iff.2 hspace⟩,
      fun d hd => ⟨?_, ?_⟩⟩⟩
    · exact h d (List.mem_cons_of_mem c ((List.takeWhile_sublist _).subset hd))
    · exact isSpace_eq_false (by simpa using List.mem_takeWhile_imp hd)

/-! ## The error for an empty line -/

theorem scan_ne_empty (position : ℕ) (c : Char) (rest : List Char) :
    scan position c rest ≠ .error .empty := by
  unfold scan
  split_ifs
  · simp
  · simp
  · split <;> simp
  · split <;> simp
  · simp

/-- Cutting a line into tokens has errors of its own. -/
theorem tokensFrom_ne_empty (position : ℕ) (text : List Char) :
    tokensFrom position text ≠ .error .empty := by
  fun_induction tokensFrom position text with
  | case1 => simp
  | case2 _ _ _ _ ih => exact ih
  | case3 _ _ _ ih => exact ih
  | case4 position c rest _ _ e hscan =>
    intro h
    exact scan_ne_empty position c rest (hscan.trans (congrArg _ (Except.error.inj h)))
  | case5 _ _ _ _ _ _ _ _ _ e hrest ih => exact hrest ▸ ih
  | case6 => simp

end Token

theorem ReadState.step_ne_empty (state : ReadState) (located : ℕ × Token) :
    state.step located ≠ .error .empty := by
  obtain ⟨position, token⟩ := located
  cases state with
  | done tree => simp [step]
  | pending openLists =>
    cases token with
    | rparen => cases openLists <;> simp [step]
    | _ => simp [step]

namespace SExpr

/-- Tokens that are refused as none are none. -/
theorem eq_nil_of_ofTokens {tokens : List (ℕ × Token)} (h : ofTokens tokens = .error .empty) :
    tokens = [] := by
  rw [ofTokens] at h
  cases hrun : tokens.foldlM ReadState.step ReadState.start with
  | error e =>
    rw [hrun] at h
    obtain rfl := Except.error.inj h
    obtain ⟨_, located, _, state, -, -, hstep⟩ := Except.exists_of_foldlM_eq_error hrun
    exact absurd hstep (state.step_ne_empty located)
  | ok final =>
    rw [hrun] at h
    have hholds := ReadState.holds_run ReadState.holds_start hrun
    cases final with
    | done tree => exact absurd h (by simp [ReadState.finish, bind, Except.bind])
    | pending openLists =>
      cases openLists with
      | cons items outer => exact absurd h (by simp [ReadState.finish, bind, Except.bind])
      | nil =>
        obtain ⟨ds, htaken, hds⟩ := hholds
        obtain rfl := List.map_eq_nil_iff.1 hds.symm
        exact List.map_eq_nil_iff.1 htaken.symm

/-- **Which lines are empty to the reader**: those without tokens. -/
theorem read_eq_empty_iff {line : String} :
    read line = .error .empty ↔ Token.tokenize line.toList = .ok [] := by
  rw [read, readChars]
  cases htokens : Token.tokenize line.toList with
  | error e =>
    refine iff_of_false (fun h => ?_) (by simp)
    have he : e = .empty := Except.error.inj h
    exact Token.tokensFrom_ne_empty 0 _ (he ▸ htokens)
  | ok tokens =>
    constructor
    · exact fun h => congrArg Except.ok (eq_nil_of_ofTokens h)
    · intro h
      rw [Except.ok.inj h]
      rfl

/-- Words are read as one atom, if they are read at all. -/
theorem ne_list_of_bare {tokens : List (ℕ × Token)} {tree : SExpr}
    (hbare : ∀ located ∈ tokens, ∃ word, located.2 = Token.bare word)
    (h : ofTokens tokens = .ok tree) (items : List SExpr) : tree ≠ list items := by
  rintro rfl
  obtain ⟨located, hmem, hlocated⟩ :=
    List.mem_map.1 (lparen_mem_of_derives (ofTokens_eq_ok_iff.1 h))
  obtain ⟨word, hword⟩ := hbare located hmem
  exact absurd (hlocated.symm.trans hword) (by simp)

end SExpr

/-! ## What is no list gives no value -/

namespace InputIndex

variable {index : InputIndex} {line : String}

/-- Values come in lists. -/
theorem bindLine_of_ne_list {tree : SExpr} (h : ∀ items, tree ≠ .list items) :
    tree.isObjectives = false ∧ index.bindLine tree line .strict = .ok none := by
  cases tree with
  | list items => exact absurd rfl (h items)
  | _ => exact ⟨rfl, rfl⟩

/-! ## Lines that make no difference and lines that end the decoding -/

/-- A comment is shown to the reader, who finds nothing. -/
theorem modelOfLine_of_comment (hempty : SExpr.read line = .error .empty)
    (hcomment : ';' ∈ line.toList) :
    index.modelOfLine line = .error (.unreadableLine line "empty input") := by
  have hblank : ¬ Text.isBlankLine line.toList = true :=
    fun hblank => Text.semicolon_notMem_of_isBlankLine hblank hcomment
  rw [modelOfLine, if_neg hblank, hempty]
  rfl

end InputIndex

namespace Outcome

variable {inputs : List Input} {verdict line : String}

/-- Whether the line makes no difference to a reply, wherever it stands behind the verdict: it
adds nothing to the model and is not the reason for an error. -/
def Skips (inputs : List Input) (verdict line : String) : Prop :=
  ∀ front back : List String, ofReply inputs (verdict :: (front ++ line :: back)) =
    ofReply inputs (verdict :: (front ++ back))

/-- Whether decoding ends at the line with the error, wherever it stands behind the verdict and
whatever comes behind it, unless it has ended with another error before. -/
def Stops (inputs : List Input) (verdict line : String) (e : Error) : Prop :=
  ∀ front back : List String,
    (∀ outcome, ofReply inputs (verdict :: front) = .ok outcome →
      ofReply inputs (verdict :: (front ++ line :: back)) = .error e) ∧
    ∀ earlier, ofReply inputs (verdict :: front) = .error earlier →
      ofReply inputs (verdict :: (front ++ line :: back)) = .error earlier

section

variable (hverdict : String.ofList (Text.trim verdict.toList) = "sat" ∨
  String.ofList (Text.trim verdict.toList) = "unknown")

include hverdict

/-- The outcome of a reply with a model is made of the model of its lines. -/
theorem exists_outcome (inputs : List Input) :
    ∃ outcome, ∀ lines, ofReply inputs (verdict :: lines) =
      ((InputIndex.ofList inputs).modelOfLines lines).map outcome := by
  rcases hverdict with hsat | hunknown
  · exact ⟨.sat, ofReply_sat hsat⟩
  · exact ⟨.unknown, ofReply_unknown hunknown⟩

/-- Such a verdict may stand alone. -/
theorem exists_ofReply_singleton (inputs : List Input) :
    ∃ outcome, ofReply inputs [verdict] = .ok outcome := by
  obtain ⟨outcome, hreply⟩ := exists_outcome hverdict inputs
  exact ⟨outcome .empty, hreply []⟩

/-- Blank lines make no difference. -/
theorem skips_of_isBlankLine (hblank : Text.isBlankLine line.toList = true) :
    Skips inputs verdict line := by
  obtain ⟨outcome, hreply⟩ := exists_outcome hverdict inputs
  exact ofReply_of_modelOfLine_eq_empty hreply (InputIndex.modelOfLine_of_isBlankLine hblank)

/-- **Where decoding ends**: at a line that is not decoded, by the order of the lines. -/
theorem stops_of_modelOfLine {e : Error}
    (hline : (InputIndex.ofList inputs).modelOfLine line = .error e) :
    Stops inputs verdict line e := by
  obtain ⟨outcome, hreply⟩ := exists_outcome hverdict inputs
  intro front back
  have hrest : (InputIndex.ofList inputs).modelOfLines (line :: back) = .error e :=
    InputIndex.modelOfLines_eq_error_iff.2 ⟨[], line, back, rfl, List.forall_mem_nil _, hline⟩
  simp only [hreply, InputIndex.modelOfLines_append, hrest]
  cases (InputIndex.ofList inputs).modelOfLines front with
  | ok model => exact ⟨fun _ _ => rfl, fun earlier h => absurd h (by simp [Except.map])⟩
  | error e' => exact ⟨fun _ h => absurd h (by simp [Except.map]), fun earlier h => h⟩

/-- A line that decoding ends at is not one that makes no difference. -/
theorem Stops.not_skips {e : Error} (h : Stops inputs verdict line e) :
    ¬ Skips inputs verdict line := by
  intro hskips
  obtain ⟨outcome, houtcome⟩ := exists_ofReply_singleton hverdict inputs
  have hstopped := (h [] []).1 outcome houtcome
  rw [hskips [] [], List.append_nil, houtcome] at hstopped
  exact absurd hstopped (by simp)

end

/-- **Where decoder and reader agree on empty lines.**  The reader reports an empty line exactly if
there is no token on it.  Such a line makes no difference to a reply with a model if and only if
there is no comment on it, and it then consists of separators.  With a comment it gives no value
either: where the lines in front of it are decoded, the error is that the line is empty input, and
otherwise it is theirs.  A line that the decoder drops as blank makes no difference; it is empty to
the reader exactly if it consists of separators, and otherwise the reader finds nothing but words of
other blank characters on it, so whatever it were read as, there would be no value and no report in
it. -/
theorem emptiness_agrees (inputs : List Input) {verdict : String} (line : String)
    (hverdict : String.ofList (Text.trim verdict.toList) = "sat" ∨
      String.ofList (Text.trim verdict.toList) = "unknown") :
    (SExpr.read line = .error .empty ↔ Token.tokenize line.toList = .ok []) ∧
    (SExpr.read line = .error .empty →
      (Skips inputs verdict line ↔ ';' ∉ line.toList) ∧
      (';' ∈ line.toList →
        Stops inputs verdict line (.unreadableLine line "empty input"))) ∧
    (';' ∉ line.toList →
      (SExpr.read line = .error .empty ↔ ∀ c ∈ line.toList, Token.isSpace c = true)) ∧
    (Text.isBlankLine line.toList = true →
      Skips inputs verdict line ∧
      (SExpr.read line = .error .empty ↔ ∀ c ∈ line.toList, Token.isSpace c = true) ∧
      (∃ tokens, Token.tokenize line.toList = .ok tokens ∧ ∀ located ∈ tokens, ∃ word,
        located.2 = .bare word ∧ ∀ c ∈ word, Text.isBlank c = true ∧ Token.isSpace c = false) ∧
      ∀ tree, SExpr.read line = .ok tree → tree.isObjectives = false ∧
        (InputIndex.ofList inputs).bindLine tree line .strict = .ok none) := by
  have hspaces : ';' ∉ line.toList →
      (SExpr.read line = .error .empty ↔ ∀ c ∈ line.toList, Token.isSpace c = true) :=
    fun hcomment => SExpr.read_eq_empty_iff.trans (Token.tokenize_eq_nil_iff hcomment)
  refine ⟨SExpr.read_eq_empty_iff, fun hempty => ?_, hspaces,
    fun hblank => ⟨skips_of_isBlankLine hverdict hblank,
      hspaces (Text.semicolon_notMem_of_isBlankLine hblank), ?_⟩⟩
  · have hstops : ';' ∈ line.toList →
        Stops inputs verdict line (.unreadableLine line "empty input") :=
      fun hcomment => stops_of_modelOfLine hverdict
        (InputIndex.modelOfLine_of_comment hempty hcomment)
    refine ⟨⟨fun hskips hcomment => ?_, fun hcomment => ?_⟩, hstops⟩
    · exact (hstops hcomment).not_skips hverdict hskips
    · refine skips_of_isBlankLine hverdict (List.all_eq_true.2 fun c hc => ?_)
      exact Text.isBlank_of_isSpace ((hspaces hcomment).1 hempty c hc)
  · obtain ⟨tokens, htokens, hbare⟩ :=
      Token.exists_bare_of_isBlank 0 (List.all_eq_true.1 hblank)
    refine ⟨⟨tokens, htokens, hbare⟩, fun tree hread => ?_⟩
    obtain ⟨tokens', htokens', hread⟩ := Except.bind_eq_ok_iff.1 hread
    obtain rfl := Except.ok.inj (htokens.symm.trans htokens')
    refine InputIndex.bindLine_of_ne_list (SExpr.ne_list_of_bare (fun located hmem => ?_) hread)
    obtain ⟨word, hword, -⟩ := hbare located hmem
    exact ⟨word, hword⟩

/-- A line of a blank and a tab behind a verdict with blanks around it, one of two no-break spaces
with a blank in between, which the reader would refuse, and one of a comment that looks like a
value, behind a line with a value. -/
theorem emptiness_agrees_blanks :
    Skips [byteInput] " sat " " \t" ∧ Skips [byteInput] "unknown" "\u00a0 \u00a0" ∧
    ¬ Skips [byteInput] " sat " " ; ((s0 #x07))" ∧
    ofReply [byteInput] [" sat ", "((s0 #xff))", " ; ((s0 #x07))", "((s0 #x01))"] =
      .error (.unreadableLine " ; ((s0 #x07))" "empty input") := by
  have hsat : String.ofList (Text.trim " sat ".toList) = "sat" := by decide
  have hunknown : String.ofList (Text.trim "unknown".toList) = "unknown" := by decide +kernel
  have hall : " \t".toList.all Token.isSpace = true := by decide
  obtain ⟨-, hskips, hspaces, -⟩ := emptiness_agrees [byteInput] " \t" (Or.inl hsat)
  have hempty := (hspaces (by decide)).2 (List.all_eq_true.1 hall)
  obtain ⟨-, -, -, hblank⟩ := emptiness_agrees [byteInput] "\u00a0 \u00a0" (Or.inr hunknown)
  obtain ⟨-, hcomment, -⟩ := emptiness_agrees [byteInput] " ; ((s0 #x07))" (Or.inl hsat)
  obtain ⟨hskips', hstops⟩ := hcomment (by decide +kernel)
  refine ⟨(hskips hempty).1.2 (by decide), (hblank (by decide)).1,
    fun h => hskips'.1 h (by decide), ?_⟩
  have hread : SExpr.read "((s0 #xff))" =
      .ok (.list [.list [.symbol byteInput.id.symbol, .bitVec 255 8]]) := by decide +kernel
  have hvalue : ofReply [byteInput] [" sat ", "((s0 #xff))"] =
      .ok (.sat { bindings := [⟨⟨0⟩, "byte", .int (.bitVec true 8) (-1)⟩] }) := by
    rw [ofReply_sat hsat, InputIndex.modelOfLines_singleton, InputIndex.modelOfLine_of_pair
      (by decide) (by decide) (by decide) hread (decode_of_claim rfl)]
    rfl
  exact (hstops (by decide) ["((s0 #xff))"] ["((s0 #x01))"]).1 _ hvalue

/-- A comment is no token, but a line with a comment alone is not blank and ends in an error; and a
no-break space is blank, but a symbol to the reader. -/
theorem emptiness_differs :
    (SExpr.read "; note" = .error .empty ∧ ofReply [] ["sat", "; note"] =
      .error (.unreadableLine "; note" "empty input")) ∧
    Text.isBlankLine "\u00a0".toList = true ∧
      SExpr.read "\u00a0" = .ok (.symbol "\u00a0") := by
  refine ⟨⟨by decide +kernel, by decide +kernel⟩, by decide, by decide +kernel⟩

end Outcome
end SmtQuery
