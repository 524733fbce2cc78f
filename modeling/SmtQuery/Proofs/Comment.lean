import Mathlib
import SmtQuery.Command
import SmtQuery.Proofs.Layout

/-!
# Comments have no tokens

A comment is written line by line, each line behind a semicolon, and the commands of a script are
written one after another, with a line feed in between.  No line holds a line feed, so the lexer
passes over each of them (`Command.lexes_commentText`), and a line feed parts two texts.  So if
every other command can be cut into tokens by itself, the script can be cut, and its tokens are
those of these commands, one after another (`Script.lexes_text`).
-/

namespace SmtQuery

/-! ## Lines -/

namespace Text

variable {acc text line : List Char}

/-- Lines do not hold the line feeds that end them. -/
theorem newline_not_mem_of_mem_linesFrom (hacc : '\n' ∉ acc) (hline : line ∈ linesFrom acc text) :
    '\n' ∉ line := by
  have hreverse : ∀ acc : List Char, '\n' ∉ acc → '\n' ∉ acc.reverse :=
    fun acc hacc hmem => hacc (List.mem_reverse.1 hmem)
  fun_induction linesFrom acc text with
  | case1 => exact absurd hline List.not_mem_nil
  | case2 acc hne =>
    rw [List.mem_singleton.1 hline]
    exact hreverse acc hacc
  | case3 acc rest ih =>
    rcases List.mem_cons.1 hline with rfl | hrest
    · rw [dropReturn]
      split
      · exact fun hmem => hreverse acc hacc (List.mem_of_mem_dropLast hmem)
      · exact hreverse acc hacc
    · exact ih List.not_mem_nil hrest
  | case4 acc c rest hc ih =>
    exact ih (fun hmem => (List.mem_cons.1 hmem).elim (fun heq => hc heq.symm) hacc) hline

theorem newline_not_mem_of_mem_lines (hline : line ∈ lines text) : '\n' ∉ line :=
  newline_not_mem_of_mem_linesFrom List.not_mem_nil hline

end Text

/-! ## Texts with line feeds in between -/

namespace Token

/-- Texts on lines of their own are cut each for itself. -/
theorem lexes_intercalate {texts : List (List Char)} {parts : List (List Token)}
    (h : List.Forall₂ Lexes texts parts) : Lexes (['\n'].intercalate texts) parts.flatten := by
  induction h with
  | nil => exact lexes_nil
  | @cons text tokens texts parts htext htexts ih =>
    cases texts with
    | nil =>
      obtain rfl := List.forall₂_nil_left_iff.1 htexts
      rw [List.intercalate_singleton, List.flatten_singleton]
      exact htext
    | cons next rest =>
      rw [List.intercalate_cons_cons, List.append_assoc, List.flatten_cons]
      exact htext.append_newline ih

/-- Texts without tokens have none together. -/
theorem lexes_intercalate_of_nil {texts : List (List Char)} (h : ∀ text ∈ texts, Lexes text []) :
    Lexes (['\n'].intercalate texts) [] := by
  have hparts : List.Forall₂ Lexes texts (texts.map fun _ => []) := by
    rw [List.forall₂_map_right_iff]
    exact List.forall₂_same.2 h
  have hnone : (texts.map fun _ => ([] : List Token)).flatten = [] :=
    List.flatten_eq_nil_iff.2 (List.forall_mem_map.2 fun _ _ => rfl)
  exact hnone ▸ lexes_intercalate hparts

end Token

/-! ## Commands -/

namespace Command

open Token

/-- Whether the command is a comment. -/
def isComment : Command → Bool
  | comment _ => true
  | _ => false

/-- The commands that are not comments. -/
def dropComments (commands : List Command) : List Command :=
  commands.filter fun c => !c.isComment

theorem dropComments_append (commands more : List Command) :
    dropComments (commands ++ more) = dropComments commands ++ dropComments more :=
  List.filter_append _ _

/-- **The text of a comment has no tokens**, whatever the comment says. -/
theorem lexes_commentText (text : List Char) : Lexes (commentText text) [] := by
  refine lexes_intercalate_of_nil (List.forall_mem_map.2 fun line hline => lexes_comment ?_)
  exact fun hmem => (List.mem_cons.1 hmem).elim (fun heq => absurd heq (by decide))
    (Text.newline_not_mem_of_mem_lines hline)

end Command

/-! ## Scripts -/

namespace Script

open Token

/-- The commands of a script that are not comments. -/
def proper (script : Script) : List Command := Command.dropComments script.commands

/-- Tokens for the commands that are not comments, with none in the place of each comment. -/
theorem exists_parts_of_dropComments {commands : List Command} {parts : List (List Token)}
    (h : List.Forall₂ (fun c tokens => Lexes c.text tokens)
      (Command.dropComments commands) parts) :
    ∃ all, List.Forall₂ (fun c tokens => Lexes c.text tokens) commands all ∧
      all.flatten = parts.flatten := by
  induction commands generalizing parts with
  | nil => exact ⟨parts, h, rfl⟩
  | cons c commands ih =>
    cases hc : c.isComment with
    | true =>
      obtain ⟨text, rfl⟩ : ∃ text, c = .comment text := by
        cases c with
        | comment text => exact ⟨text, rfl⟩
        | _ => exact absurd hc (by simp [Command.isComment])
      rw [Command.dropComments, List.filter_cons_of_neg (by rw [hc]; decide)] at h
      obtain ⟨all, hall, heq⟩ := ih h
      exact ⟨[] :: all, .cons (Command.lexes_commentText text.toList) hall, heq⟩
    | false =>
      rw [Command.dropComments, List.filter_cons_of_pos (by rw [hc]; decide)] at h
      obtain ⟨tokens, rest, htokens, hrest, rfl⟩ := List.forall₂_cons_left_iff.1 h
      obtain ⟨all, hall, heq⟩ := ih hrest
      exact ⟨tokens :: all, .cons htokens hall, by rw [List.flatten_cons, heq, List.flatten_cons]⟩

/-- **What a script is cut into**: the tokens of its commands, without the comments. -/
theorem lexes_text {script : Script} {parts : List (List Token)}
    (h : List.Forall₂ (fun c tokens => Lexes c.text tokens) script.proper parts) :
    Lexes script.text parts.flatten := by
  obtain ⟨all, hall, heq⟩ := exists_parts_of_dropComments h
  rw [← heq, Script.text]
  exact lexes_intercalate (List.forall₂_map_left_iff.2 hall)

/-- Commands that can be cut have tokens. -/
theorem exists_parts {commands : List Command} (h : ∀ c ∈ commands, ∃ tokens, Lexes c.text tokens) :
    ∃ parts, List.Forall₂ (fun c tokens => Lexes c.text tokens) commands parts := by
  induction commands with
  | nil => exact ⟨[], .nil⟩
  | cons c commands ih =>
    obtain ⟨⟨tokens, htokens⟩, hrest⟩ := List.forall_mem_cons.1 h
    obtain ⟨parts, hparts⟩ := ih hrest
    exact ⟨tokens :: parts, .cons htokens hparts⟩

end Script
end SmtQuery
