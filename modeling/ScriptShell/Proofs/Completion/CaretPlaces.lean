import Mathlib.Data.List.Induction
import Mathlib.Data.List.TakeWhile
import ScriptShell.Completion.Source
import ScriptShell.Proofs.Text.Pieces

/-! # Carets

A caret is a number of bytes. It has a place exactly when it stands between two characters of a
text or at one of its ends; everywhere else the answer is an error that says why
(`candidates_eq_error_iff`). The text before a place is divided into the lines above, the line up to
the word and the word: `CaretPlace.divides_of`. -/

namespace ScriptShell

open Text

/-! ## Numbers of bytes -/

/-- The size of a text in bytes is that of the string. -/
theorem byteSize_eq (text : List Char) : byteSize text = (String.ofList text).utf8ByteSize := by
  induction text using List.reverseRecOn with
  | nil => rfl
  | append_singleton text c ih =>
      rw [byteSize, List.foldl_append, ← byteSize, ih, String.ofList_append,
        String.utf8ByteSize_append, ← String.singleton_eq_ofList, String.utf8ByteSize_singleton]
      rfl

/-- The size of a text is that of its first character and of the rest. -/
theorem byteSize_cons (c : Char) (text : List Char) :
    byteSize (c :: text) = c.utf8Size + byteSize text := by
  rw [byteSize_eq, byteSize_eq, ← List.singleton_append, String.ofList_append,
    String.utf8ByteSize_append, ← String.singleton_eq_ofList, String.utf8ByteSize_singleton]

/-- **A caret divides a text where the bytes before it are whole characters.** -/
theorem beforeCaret?_eq_some_iff {text before : List Char} {caret : Nat} :
    beforeCaret? text caret = some before ↔
      ∃ after, text = before ++ after ∧ byteSize before = caret := by
  fun_induction beforeCaret? text caret generalizing before with
  | case1 text =>
      constructor
      · rintro ⟨⟩
        exact ⟨text, rfl, rfl⟩
      · rintro ⟨after, -, none⟩
        cases before with
        | nil => rfl
        | cons c before =>
            have pos := c.utf8Size_pos
            rw [byteSize_cons] at none
            omega
  | case2 caret =>
      refine ⟨nofun, ?_⟩
      rintro ⟨after, isNil, size⟩
      rw [(List.append_eq_nil_iff.mp isNil.symm).1] at size
      cases size
  | case3 c text caret fits ih =>
      rw [Option.map_eq_some_iff]
      constructor
      · rintro ⟨others, isOthers, rfl⟩
        obtain ⟨after, rfl, size⟩ := ih.mp isOthers
        exact ⟨after, rfl, by rw [byteSize_cons]; omega⟩
      · rintro ⟨after, whole, size⟩
        cases before with
        | nil => cases size
        | cons d others =>
            obtain ⟨rfl, rfl⟩ := List.cons.inj whole
            rw [byteSize_cons] at size
            exact ⟨others, ih.mpr ⟨after, rfl, by omega⟩, rfl⟩
  | case4 c text caret splits =>
      refine ⟨nofun, ?_⟩
      rintro ⟨after, whole, size⟩
      cases before with
      | nil => cases size
      | cons d others =>
          obtain ⟨rfl, rfl⟩ := List.cons.inj whole
          rw [byteSize_cons] at size
          omega

/-! ## Answers and errors -/

/-- A caret is between two characters of a text, or at one of its ends. -/
def OnBoundary (text : String) (caret : Nat) : Prop :=
  ∃ before after : String, text = before ++ after ∧ before.utf8ByteSize = caret

/-- The end of a first part is a place for the caret, with that part before it. -/
theorem beforeCaret?_of_append {text before after : String} (whole : text = before ++ after) :
    beforeCaret? text.toList before.utf8ByteSize = some before.toList := by
  refine beforeCaret?_eq_some_iff.mpr ⟨after.toList, ?_, ?_⟩
  · rw [whole, String.toList_append]
  · rw [byteSize_eq, String.ofList_toList]

/-- A caret that has a text before it stands between two characters. -/
theorem onBoundary_of_beforeCaret? {text : String} {before : List Char} {caret : Nat}
    (found : beforeCaret? text.toList caret = some before) : OnBoundary text caret := by
  obtain ⟨after, whole, size⟩ := beforeCaret?_eq_some_iff.mp found
  refine ⟨String.ofList before, String.ofList after, ?_, byteSize_eq before ▸ size⟩
  rw [← String.ofList_append, ← whole, String.ofList_toList]

section

variable {c : Catalog} {document : Document} {text : String} {caret : Nat}

/-- On a boundary there is no error. -/
theorem candidates_of_append {before after : String} (whole : text = before ++ after) :
    c.candidates document text before.utf8ByteSize =
      .ok (c.candidatesFor document text (.of before.toList)) := by
  have inside : ¬byteSize text.toList < before.utf8ByteSize := by
    rw [byteSize_eq, String.ofList_toList, whole, String.utf8ByteSize_append]
    omega
  simp only [Catalog.candidates, if_neg inside, beforeCaret?_of_append whole]

/-- **The two errors** are for carets past the end and for those inside a character. -/
theorem candidates_eq_error_iff {e : CompletionError} :
    c.candidates document text caret = .error e ↔
      text.utf8ByteSize < caret ∧ e = .caretOutOfRange caret text.utf8ByteSize ∨
      caret ≤ text.utf8ByteSize ∧ ¬OnBoundary text caret ∧ e = .caretInsideCharacter caret := by
  have size : byteSize text.toList = text.utf8ByteSize := by rw [byteSize_eq, String.ofList_toList]
  by_cases past : text.utf8ByteSize < caret
  · have isError : c.candidates document text caret =
        .error (.caretOutOfRange caret text.utf8ByteSize) := by
      simp only [Catalog.candidates, size, if_pos past]
    rw [isError]
    constructor
    · rintro ⟨⟩
      exact .inl ⟨past, rfl⟩
    · rintro (⟨-, rfl⟩ | ⟨inside, -⟩)
      · rfl
      · omega
  · by_cases on : OnBoundary text caret
    · obtain ⟨before, after, whole, rfl⟩ := id on
      rw [candidates_of_append whole]
      constructor
      · nofun
      · rintro (⟨isPast, -⟩ | ⟨-, off, -⟩)
        · exact absurd isPast past
        · exact absurd on off
    · have none : beforeCaret? text.toList caret = none := by
        rw [Option.eq_none_iff_forall_ne_some]
        exact fun before found => on (onBoundary_of_beforeCaret? found)
      have isError : c.candidates document text caret = .error (.caretInsideCharacter caret) := by
        simp only [Catalog.candidates, size, if_neg past, none]
      rw [isError]
      constructor
      · rintro ⟨⟩
        exact .inr ⟨Nat.le_of_not_lt past, on, rfl⟩
      · rintro (⟨isPast, -⟩ | ⟨-, -, rfl⟩)
        · exact absurd isPast past
        · rfl

end

/-! ## The division of a text -/

/-- A text is what is left without its end, and that end. -/
theorem dropEndWhile_append_endWhile (p : Char → Bool) (text : List Char) :
    dropEndWhile p text ++ endWhile p text = text := by
  rw [dropEndWhile, endWhile, ← List.reverse_append, List.takeWhile_append_dropWhile,
    List.reverse_reverse]

/-- The end of a text that is cut off has only characters of the kind asked for. -/
theorem of_mem_endWhile {p : Char → Bool} {text : List Char} {c : Char}
    (member : c ∈ endWhile p text) : p c = true :=
  List.mem_takeWhile_imp (List.mem_reverse.mp member)

/-- The rest of a text ends in a character that is not of the class, if it is not empty. -/
theorem of_getLast?_dropEndWhile {p : Char → Bool} {text : List Char} {c : Char}
    (isLast : (dropEndWhile p text).getLast? = some c) : p c = false := by
  rw [dropEndWhile, List.getLast?_reverse] at isLast
  have notNil : text.reverse.dropWhile p ≠ [] := by
    intro isNil
    rw [isNil] at isLast
    cases isLast
  have first := List.head_dropWhile_not p notNil
  rw [List.head?_eq_some_head notNil] at isLast
  exact Option.some.inj isLast ▸ first

/-- The end of a text is the end of the end for a larger class. -/
theorem endWhile_endWhile {p q : Char → Bool} (smaller : ∀ c, p c = true → q c = true)
    (text : List Char) : endWhile p (endWhile q text) = endWhile p text := by
  have both : (fun c => decide (p c = true ∧ q c = true)) = p := by
    funext c
    cases isIn : p c with
    | false => simp
    | true => simp [smaller c isIn]
  rw [endWhile, endWhile, List.reverse_reverse, List.takeWhile_takeWhile, both, endWhile]

/-- How the text before a caret is divided. The places between the parts are the starts of the line
and of the word. -/
structure CaretPlace.Divides (p : CaretPlace) (before : List Char) : Prop where
  whole : p.above ++ p.head ++ p.word = before
  /-- The line starts after a line break or where the text starts. -/
  above : p.above = [] ∨ ∃ lines, p.above = lines ++ ['\n']
  line : '\n' ∉ p.head ++ p.word
  word : ∀ c ∈ p.word, isWordChar c = true
  /-- The word is as long as can be. -/
  longest : ∀ c, (p.above ++ p.head).getLast? = some c → isWordChar c = false

namespace CaretPlace

/-- The lines above the caret and its own line are the whole text before it. -/
theorem above_append_line (before : List Char) :
    (of before).above ++ (of before).line = before := by
  have words : ∀ c, isWordChar c = true → (c != '\n') = true := by
    intro c isWord
    by_cases isBreak : c = '\n'
    · rw [isBreak, show isWordChar '\n' = false by decide +kernel] at isWord
      cases isWord
    · exact bne_iff_ne.mpr isBreak
  show dropEndWhile (· != '\n') before ++
    (dropEndWhile isWordChar (endWhile (· != '\n') before) ++ endWhile isWordChar before) = before
  rw [← endWhile_endWhile words, dropEndWhile_append_endWhile, dropEndWhile_append_endWhile]

/-- The line of the caret goes back to the last line break. -/
theorem head_append_word (before : List Char) :
    (of before).line = endWhile (· != '\n') before :=
  List.append_cancel_left
    ((above_append_line before).trans (dropEndWhile_append_endWhile _ before).symm)

/-- The lines above end in a line break, if there are any. -/
theorem eq_of_getLast?_above {before : List Char} {c : Char}
    (isLast : (of before).above.getLast? = some c) : c = '\n' := by
  have stays := of_getLast?_dropEndWhile isLast
  simpa using stays

/-- **The text before a caret is divided at the start of its line and of its word.** -/
theorem divides_of (before : List Char) : (of before).Divides before where
  whole := by
    rw [List.append_assoc]
    exact above_append_line before
  above := by
    rcases List.eq_nil_or_concat (of before).above with isNil | ⟨lines, c, isAbove⟩
    · exact .inl isNil
    · rw [List.concat_eq_append] at isAbove
      have isBreak : c = '\n' := eq_of_getLast?_above (by rw [isAbove]; simp)
      exact .inr ⟨lines, isBreak ▸ isAbove⟩
  line := by
    intro member
    have same : (of before).head ++ (of before).word = _ := head_append_word before
    rw [same] at member
    simpa using of_mem_endWhile member
  word := fun c member => of_mem_endWhile member
  longest := by
    intro c isLast
    rw [List.getLast?_append] at isLast
    cases isHead : (of before).head.getLast? with
    | some d =>
        rw [isHead, Option.some_or] at isLast
        cases isLast
        exact of_getLast?_dropEndWhile isHead
    | none =>
        rw [isHead, Option.none_or] at isLast
        rw [eq_of_getLast?_above isLast]
        decide +kernel

/-- A word that does not follow a period is a name on its own. -/
theorem receiver?_eq_none {before : List Char}
    (noDot : ¬['.'] <:+ (of before).above ++ (of before).head) : (of before).receiver? = none := by
  rw [receiver?, Option.map_eq_none_iff, Option.eq_none_iff_forall_ne_some]
  intro front dropped
  have isHead := dropTail?_eq_some_iff.mp dropped
  exact noDot ⟨(of before).above ++ front, by rw [isHead, List.append_assoc]⟩

end CaretPlace

end ScriptShell
