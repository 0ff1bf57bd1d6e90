import Script.Token.Scanner
import Script.Tree.Source

/-!
# `Proofs.Token.Strings` — a printed string is read back

The printer writes some characters as a backslash and a letter, and the scanner has a table of its
own for what such letters stand for. The two tables are compared once, one character at a time
(`escapeChar_cases`). So what is printed for a character is read as that character, whatever follows
(`stringBody_escapeChar`): it is no closing quote, no faulty escape sequence and no line feed.

The main statement is `printed_string_read_back`.
-/

namespace Script

/-! ## One character -/

/-- A character is printed with a letter that stands for it, or as itself. What is printed as itself
    has no meaning of its own inside a string, and does not end the line. -/
theorem escapeChar_cases (c : Char) :
    (∃ e, escapeChar c = ['\\', e] ∧ unescape? e = some c)
      ∨ (escapeChar c = [c] ∧ c ≠ '\\' ∧ c ≠ '"' ∧ c ≠ '\n') := by
  fun_cases escapeChar c with
  -- The last case keeps the character, which is none of those before it.
  | case10 => exact .inr ⟨rfl, by assumption, by assumption, by assumption⟩
  | _ => exact .inl ⟨_, rfl, rfl⟩

/-- One character as it is escaped stands for itself. -/
theorem stringBody_escapeChar (c : Char) (cs : List Char) :
    stringBody (escapeChar c ++ cs)
      = { stringBody cs with
          value := c :: (stringBody cs).value
          text := escapeChar c ++ (stringBody cs).text } := by
  obtain ⟨e, hescaped, hletter⟩ | ⟨hplain, hslash, hquote, -⟩ := escapeChar_cases c
  · simp [hescaped, stringBody, hletter]
  · rw [hplain, List.cons_append, List.nil_append, stringBody] <;> simp_all

/-- No line feed is printed inside a string. -/
theorem newline_notMem_escapeChar (c : Char) : '\n' ∉ escapeChar c := by
  obtain ⟨e, hescaped, hletter⟩ | ⟨hplain, -, -, hfeed⟩ := escapeChar_cases c
  · -- A line feed behind a backslash stands for nothing.
    have hfeed : '\n' ≠ e := by
      rintro rfl
      cases hletter
    simp [hescaped, hfeed]
  · simp [hplain, hfeed.symm]

/-! ## Whole strings -/

/-- What is escaped reads back, up to the closing quote. -/
theorem stringBody_escape (cs rest : List Char) :
    stringBody (cs.flatMap escapeChar ++ '"' :: rest)
      = ⟨true, none, cs, cs.flatMap escapeChar ++ ['"'], rest⟩ := by
  induction cs with
  | nil => rfl
  | cons c cs ih =>
      rw [List.flatMap_cons, List.append_assoc, stringBody_escapeChar, ih]
      simp

theorem toList_source_string (s : String) :
    (Constant.source (.string s)).toList = '"' :: (s.toList.flatMap escapeChar ++ ['"']) := by
  simp [Constant.source, escape]

/-- A printed string is one fragment of the text. -/
theorem fragment_source_string (s : String) (rest : List Char) :
    fragment '"' (s.toList.flatMap escapeChar ++ '"' :: rest)
      = ⟨.ok (.string, some (.string s)), (Constant.source (.string s)).toList, rest⟩ := by
  have hquote : ∀ cs, fragment '"' cs = stringFragment cs := fun _ => rfl
  simp [hquote, stringFragment, stringBody_escape, toList_source_string]

/-- A printed string stands on one line. -/
theorem count_newline_source_string (s : String) :
    (Constant.source (.string s)).toList.count '\n' = 0 := by
  rw [List.count_eq_zero, toList_source_string]
  simp [newline_notMem_escapeChar]

/-- **A printed string is read back.** Whatever the string, and whatever the text behind it and the
    line on which it begins: the scanner takes what is printed between quotes for a string token
    that stands for the string and covers the printed text. It goes on with the first character of
    the text behind, on the same line. -/
theorem printed_string_read_back (v rest : String) (line : Nat) (latest : Option TokenKind) :
    let printed := "\"" ++ escape v ++ "\""
    Scanner.next ⟨(printed ++ rest).toList, line, latest⟩
      = (.ok ⟨.string, printed, some (.string v), line⟩, ⟨rest.toList, line, some .string⟩) := by
  intro printed
  have hprinted : printed = Constant.source (.string v) := rfl
  have htext : (printed ++ rest).toList
      = '"' :: (v.toList.flatMap escapeChar ++ '"' :: rest.toList) := by
    rw [String.toList_append, hprinted, toList_source_string]
    simp
  -- A quote is neither a blank nor the beginning of a comment.
  have htrivia : ∀ cs, skipTrivia false ('"' :: cs) = '"' :: cs := fun _ => rfl
  simp only [Scanner.next, Scanner.step?, htext, htrivia, fragment_source_string, Scanner.itemOf,
    Scanner.after]
  rw [String.ofList_toList, count_newline_source_string, Nat.add_zero, hprinted]

end Script
