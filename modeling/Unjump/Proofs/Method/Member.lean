import Unjump.Command.Run
import Unjump.Proofs.JavaType.Refusal
import Unjump.Proofs.Text.Visible

/-!
# Methods whose descriptor is refused

In the place of such a method stands a line of comment that names the reason. The descriptor stands
in it twice, quoted and as part of the error, and only the quoted one is kept from breaking the
line: the comment ends before the descriptor does if a line ends inside the descriptor
(`isCommentLine_memberText_iff`).
-/

namespace Unjump

open Text

/-- One line of comment, four blanks from the margin. -/
def IsCommentLine (text : List Char) : Prop :=
  ∃ comment, Unbroken comment ∧ text = "    //".toList ++ comment ++ ['\n']

/-- A line of comment is one line. -/
theorem IsCommentLine.length_lines {text : List Char} (h : IsCommentLine text) :
    (lines text).length = 1 := by
  obtain ⟨comment, hcomment, rfl⟩ := h
  have hfront : Unbroken "    //".toList := by decide
  rw [length_lines_concat, List.count_eq_zero_of_not_mem]
  exact (unbroken_append.2 ⟨hfront, hcomment⟩).feed_notMem

namespace Method

variable {m : Method} {error : Descriptor.Error}

/-- The text is a comment that holds a line end exactly if the descriptor does. -/
theorem exists_comment_of_refused (hname : Unbroken m.name.toList)
    (hrefused : Descriptor.parseMethod m.descriptorText = .error error) (body : List Statement) :
    ∃ comment, (m.memberText body).toList = "    //".toList ++ comment ++ ['\n'] ∧
      ∀ c, c = '\n' ∨ c = '\r' → (c ∈ comment ↔ c ∈ m.descriptorText.toList) := by
  have hsource : source m.name m.descriptorText m.locals body = .error error := by
    rw [source, hrefused]
  have htext : m.memberText body = "    // " ++ m.name ++ ": bad descriptor " ++
      Visible.quote m.descriptorText ++ (": " ++ error.message ++ "\n") := by
    rw [memberText, hsource]
    rfl
  refine ⟨" ".toList ++ m.name.toList ++ ": bad descriptor ".toList ++
    (Visible.quote m.descriptorText).toList ++ ": ".toList ++ error.message.toList, ?_, ?_⟩
  · rw [htext]
    simp only [String.toList_append, List.append_assoc]
    rfl
  · intro c hc
    rw [← Descriptor.mem_message_iff hrefused hc, List.mem_append]
    -- what stands in front of the error does not break the line
    refine or_iff_right (Unbroken.notMem ?_ hc)
    simp only [unbroken_append]
    exact ⟨⟨⟨⟨by decide, hname⟩, by decide⟩, Visible.unbroken_quote _⟩, by decide⟩

/-- A method whose descriptor is refused is one line of comment exactly if no line ends inside the
descriptor. A text that starts as a comment it is in any case, and one line as far as line feeds
count exactly if there is none in the descriptor. -/
theorem isCommentLine_memberText_iff (hname : Unbroken m.name.toList)
    (hrefused : Descriptor.parseMethod m.descriptorText = .error error) (body : List Statement) :
    (IsCommentLine (m.memberText body).toList ↔ Unbroken m.descriptorText.toList) ∧
      "    //".toList <+: (m.memberText body).toList ∧
      ((lines (m.memberText body).toList).length = 1 ↔ '\n' ∉ m.descriptorText.toList) := by
  obtain ⟨comment, htext, hcomment⟩ := exists_comment_of_refused hname hrefused body
  have hfeed := hcomment '\n' (.inl rfl)
  have hreturn := hcomment '\r' (.inr rfl)
  rw [htext]
  refine ⟨⟨?_, fun h => ?_⟩, ?_, ?_⟩
  · rintro ⟨comment', h, heq⟩
    obtain rfl := List.append_cancel_left (List.append_cancel_right heq)
    exact ⟨mt hfeed.2 h.feed_notMem, mt hreturn.2 h.return_notMem⟩
  · exact ⟨comment, ⟨mt hfeed.1 h.feed_notMem, mt hreturn.1 h.return_notMem⟩, rfl⟩
  · rw [List.append_assoc]
    exact List.prefix_append _ _
  · have hfront : '\n' ∉ "    //".toList := by decide
    rw [length_lines_concat, Nat.add_eq_right, List.count_eq_zero, List.mem_append,
      or_iff_right hfront, hfeed]

/-- A method with a descriptor and without code. -/
def withDescriptor (descriptor : String) : Method :=
  ⟨"one", some descriptor, .empty, [], []⟩

/-- The elements of an array are not of type `void`. -/
theorem isCommentLine_memberText_voidElements :
    Unbroken (withDescriptor "([V)V").name.toList ∧
      Descriptor.parseMethod "([V)V" = .error (.unexpected 'V' 2 "([V)V") ∧
      IsCommentLine ((withDescriptor "([V)V").memberText []).toList := by
  have hname : Unbroken (withDescriptor "([V)V").name.toList := by decide
  have hread : Descriptor.readParameters ['[', 'V', ')', 'V'] =
      .error (.unexpected ['V', ')', 'V']) := by
    rw [Descriptor.readParameters]
    · rfl
    · exact List.cons_ne_nil _ _
    · exact fun rest h => absurd (List.cons.inj h).1 (by decide)
  have hrefused : Descriptor.parseMethod "([V)V" = .error (.unexpected 'V' 2 "([V)V") := by
    show (Descriptor.readMethod ['(', '[', 'V', ')', 'V']).mapError _ = _
    rw [Descriptor.readMethod, hread]
    rfl
  exact ⟨hname, hrefused, (isCommentLine_memberText_iff hname hrefused []).1.2 (by decide)⟩

/-- A line that ends inside a descriptor ends the comment, and what follows it is a declaration. -/
theorem not_isCommentLine_memberText_declaration :
    Descriptor.parseMethod "?\nint x; //" = .error (.unexpected '?' 0 "?\nint x; //") ∧
      lines ((withDescriptor "?\nint x; //").memberText []).toList =
        [("    // one: bad descriptor \"?\\nint x; //\": " ++
            "unexpected `?` at position 0 in descriptor `?").toList,
          "int x; //`".toList] ∧
      ¬ IsCommentLine ((withDescriptor "?\nint x; //").memberText []).toList := by
  have hlines : lines ((withDescriptor "?\nint x; //").memberText []).toList =
      [("    // one: bad descriptor \"?\\nint x; //\": " ++
          "unexpected `?` at position 0 in descriptor `?").toList,
        "int x; //`".toList] := by decide +kernel
  refine ⟨rfl, hlines, fun h => ?_⟩
  have hone := h.length_lines
  rw [hlines] at hone
  exact absurd hone (by decide)

end Method

end Unjump
