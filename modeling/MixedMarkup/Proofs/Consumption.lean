import MixedMarkup.Mixed.Html
import MixedMarkup.Proofs.Movement
import Mathlib.Data.List.TakeWhile
/-!
# Tokenizers — every token has a character

The tokenizers of the library consume, in every state. A lexeme of a
script or a stylesheet has a width (`lexeme?_width_pos`), a scan for the
end of a construct takes a character where there is one, and the markup
tokenizer reads blanks, or the rest of a construct it is in, or a first
character and then only moves on. The one place where something is given
back is the end of a word of a tag, and the word's first character stays
(`Markup.reaches_inWord`).
-/

namespace MixedMarkup

open Text Cursor

/-! ## Plain text -/

theorem Plain.tokenizer_consumes : Plain.tokenizer.Consumes := by
  intro c s _ hrest
  exact advances_readAll hrest

/-! ## Scripts -/

namespace Script

theorem slashLexeme_width_pos (text : List Char) : 0 < (slashLexeme text).2 := by
  unfold slashLexeme
  split <;> omega

theorem dotLexeme_width_pos (text : List Char) : 0 < (dotLexeme text).2 := by
  unfold dotLexeme
  split
  · split <;> omega
  · exact Nat.one_pos

/-- A lexeme of a script has a width. -/
theorem lexeme?_width_pos {text : List Char} {l : Lexeme} {width : Nat}
    (h : lexeme? text = some (l, width)) : 0 < width := by
  cases text with
  | nil => simp [lexeme?] at h
  | cons c text =>
    have hslash := slashLexeme_width_pos text
    have hdot := dotLexeme_width_pos text
    simp only [lexeme?] at h
    -- each branch gives its width outright, or takes one of the two widths above
    repeat' split at h
    all_goals
      simp only [Option.some.injEq, Option.map_eq_some_iff, Prod.ext_iff] at h
      omega

/-- The end of a token moves the cursor on, if at all. -/
theorem reaches_finish (l : Lexeme) (c : Cursor) (s : State) : c.Reaches (finish l c s).cursor := by
  cases l with
  | quote mark => exact reaches_readString mark c
  | blockComment | template => exact reaches_read _ c
  | lineComment | number | word | opening | closing | dot | punctuation | operator =>
    exact .refl c

theorem advances_inComment {c : Cursor} (hrest : c.rest ≠ []) (s : State) :
    c.Advances (inComment c s).cursor :=
  advances_read (Scan.through_width_pos (by decide) hrest) hrest

theorem advances_inTemplate {c : Cursor} (hrest : c.rest ≠ []) (s : State) :
    c.Advances (inTemplate c s).cursor :=
  advances_read (Scan.quoted_width_pos hrest) hrest

theorem advances_inCode {c : Cursor} (hrest : c.rest ≠ []) (s : State) :
    c.Advances (inCode c s).cursor := by
  unfold inCode
  split
  · rename_i d hblanks
    exact advances_readWhile? hblanks
  · split
    · rename_i l width hlexeme
      exact (advances_read (lexeme?_width_pos hlexeme) hrest).trans_reaches (reaches_finish l _ s)
    · split
      · rename_i d hnext
        exact advances_next? hnext
      · rename_i hnext
        exact absurd (next?_eq_none hnext) hrest

/-- **The script tokenizer consumes.** -/
theorem tokenizer_consumes (o : Options) : (tokenizer o).Consumes := by
  intro c s _ hrest
  change c.Advances (token c s).cursor
  unfold token
  split
  · exact advances_inComment hrest _
  · exact advances_inTemplate hrest _
  · exact advances_inCode hrest _

end Script

/-! ## Stylesheets -/

namespace Stylesheet

variable {text : List Char} {l : Lexeme} {width : Nat}

theorem unsignedLength?_pos (h : unsignedLength? text = some width) : 0 < width := by
  unfold unsignedLength? at h
  split at h
  · split at h
    · simp at h
      omega
    · simp at h
  · split at h
    · simp at h
      omega
    · simp at h
  · simp at h

theorem nameLength?_pos (h : nameLength? text = some width) : 0 < width := by
  unfold nameLength? at h
  split at h
  · split at h
    · simp at h
      omega
    · simp at h
  · simp at h

theorem hyphenLexeme?_width_pos (h : hyphenLexeme? text = some (l, width)) : 0 < width := by
  unfold hyphenLexeme? at h
  split at h
  · simp at h
    omega
  · simp at h
    omega
  · simp only [Option.map_eq_some_iff, Prod.mk.injEq] at h
    obtain ⟨n, -, -, rfl⟩ := h
    omega
  · simp at h

theorem dotLexeme?_width_pos (h : dotLexeme? text = some (l, width)) : 0 < width := by
  unfold dotLexeme? at h
  split at h
  · rename_i n hn
    simp only [Option.some.injEq, Prod.mk.injEq] at h
    obtain ⟨-, rfl⟩ := h
    exact unsignedLength?_pos hn
  · split at h <;> simp at h
    omega
  · simp at h

theorem markLexeme?_width_pos (h : markLexeme? text = some (l, width)) : 0 < width := by
  simp only [markLexeme?] at h
  split at h
  · simp at h
    omega
  · simp at h

theorem hashLexeme?_width_pos (h : hashLexeme? text = some (l, width)) : 0 < width := by
  simp only [hashLexeme?] at h
  split at h
  · simp at h
    omega
  · simp at h

theorem atLexeme?_width_pos (h : atLexeme? text = some (l, width)) : 0 < width := by
  unfold atLexeme? at h
  split at h
  · split at h <;> simp at h
    omega
  · simp at h

/-- A lexeme of a stylesheet has a width. -/
theorem lexeme?_width_pos (h : lexeme? text = some (l, width)) : 0 < width := by
  unfold lexeme? at h
  split at h
  · simp at h
  · split at h
    · simp at h
      omega
    split at h
    · simp at h
      omega
    split at h
    · exact hyphenLexeme?_width_pos h
    split at h
    · exact dotLexeme?_width_pos h
    split at h
    · exact markLexeme?_width_pos h
    split at h
    · exact hashLexeme?_width_pos h
    split at h
    · exact atLexeme?_width_pos h
    split at h
    · simp only [Option.map_eq_some_iff, Prod.mk.injEq] at h
      obtain ⟨n, hn, -, rfl⟩ := h
      exact unsignedLength?_pos hn
    split at h
    · simp only [Option.map_eq_some_iff, Prod.mk.injEq] at h
      obtain ⟨n, hn, -, rfl⟩ := h
      exact nameLength?_pos hn
    · simp only [Option.map_eq_some_iff, Prod.mk.injEq] at h
      obtain ⟨-, -, -, rfl⟩ := h
      exact Nat.one_pos

theorem reaches_finish (l : Lexeme) (c : Cursor) (s : State) : c.Reaches (finish l c s).cursor := by
  unfold finish
  split
  · exact reaches_read _ c
  · exact reaches_readString _ c
  · exact .refl c

theorem advances_inComment {c : Cursor} (hrest : c.rest ≠ []) (s : State) :
    c.Advances (inComment c s).cursor :=
  advances_read (Scan.through_width_pos (by decide) hrest) hrest

theorem advances_inRules {c : Cursor} (hrest : c.rest ≠ []) (s : State) :
    c.Advances (inRules c s).cursor := by
  unfold inRules
  split
  · rename_i d hblanks
    exact advances_readWhile? hblanks
  · split
    · rename_i l width hlexeme
      exact (advances_read (lexeme?_width_pos hlexeme) hrest).trans_reaches (reaches_finish l _ s)
    · exact advances_read Nat.one_pos hrest

/-- **The stylesheet tokenizer consumes.** -/
theorem tokenizer_consumes (o : Options) : (tokenizer o).Consumes := by
  intro c s _ hrest
  change c.Advances (token c s).cursor
  unfold token
  split
  · exact advances_inComment hrest _
  · exact advances_inRules hrest _

end Stylesheet

/-! ## Markup -/

namespace Markup

theorem advances_inVerbatim (v : Verbatim) {c : Cursor} (hrest : c.rest ≠ []) (s : State) :
    c.Advances (inVerbatim v c s).cursor :=
  advances_read (Scan.through_width_pos (by cases v <;> decide) hrest) hrest

theorem advances_inDoctype {c : Cursor} (hrest : c.rest ≠ []) (s : State) :
    c.Advances (inDoctype c s).cursor :=
  advances_read (Scan.through_width_pos (by simp) hrest) hrest

theorem advances_inValue (quote : Char) {c : Cursor} (hrest : c.rest ≠ []) (s : State) :
    c.Advances (inValue quote c s).cursor :=
  advances_read (Scan.through_width_pos (by simp) hrest) hrest

theorem reaches_entityBody (c : Cursor) : c.Reaches (entityBody c).2 := by
  unfold entityBody
  split
  · exact .refl c
  · rename_i d hd
    split
    · exact (advances_readChar? hd).reaches
    · rename_i e he
      exact (advances_readChar? hd).reaches.trans (advances_readChar? he).reaches

theorem reaches_inEntity (c : Cursor) (s : State) : c.Reaches (inEntity c s).cursor := by
  have hbody := reaches_entityBody c
  simp only [inEntity]
  split
  · exact hbody
  · rename_i d hd
    have hd' := hbody.trans (advances_readWhile? hd).reaches
    split
    · exact hd'
    · rename_i e he
      exact hd'.trans (advances_readChar? he).reaches

theorem reaches_inDeclaration (c : Cursor) (s : State) :
    c.Reaches (inDeclaration c s).cursor := by
  unfold inDeclaration
  split
  · rename_i d hd
    have hd' := (advances_readChar? hd).reaches
    split
    · rename_i e he
      exact (hd'.trans (reaches_readLiteral? he)).trans (reaches_read _ e)
    · exact hd'
  · split
    · rename_i d hd
      exact (reaches_readLiteral? hd).trans (reaches_read _ d)
    · split
      · rename_i d hd
        exact (reaches_readLiteralAnyCase? hd).trans (reaches_read _ d)
      · exact .refl c

theorem reaches_inDelimiter (c : Cursor) (s : State) : c.Reaches (inDelimiter c s).cursor := by
  unfold inDelimiter
  split
  · rename_i d hd
    exact (advances_readChar? hd).reaches.trans (reaches_inDeclaration d s)
  · split
    · rename_i d hd
      exact (advances_readChar? hd).reaches.trans (reaches_read _ d)
    · split
      · rename_i d hd
        exact (advances_readChar? hd).reaches
      · exact .refl c

theorem advances_inText {c : Cursor} (hrest : c.rest ≠ []) (s : State) :
    c.Advances (inText c s).cursor := by
  unfold inText
  split
  · rename_i hnext
    exact absurd (next?_eq_none hnext) hrest
  · rename_i d hd
    exact (advances_next? hd).trans_reaches (reaches_inDelimiter d s)
  · rename_i d hd
    exact (advances_next? hd).trans_reaches (reaches_inEntity d s)
  · rename_i d _ _ hd
    exact (advances_next? hd).trans_reaches (reaches_skip _ d)

/-- The slashes at the end of a text are its last characters. -/
theorem exists_append_trailingSlashes (text : List Char) :
    ∃ stem, text = stem ++ List.replicate (trailingSlashes text) '/' := by
  have hslashes : text.reverse.takeWhile (· == '/') =
      List.replicate (trailingSlashes text) '/' := by
    rw [List.eq_replicate_iff]
    refine ⟨rfl, fun c hc => ?_⟩
    simpa using List.mem_takeWhile_imp hc
  refine ⟨(text.reverse.dropWhile (· == '/')).reverse, ?_⟩
  have hsplit : text.reverse.takeWhile (· == '/') ++ text.reverse.dropWhile (· == '/') =
      text.reverse := List.takeWhile_append_dropWhile
  rw [hslashes] at hsplit
  have hrev := congrArg List.reverse hsplit
  rw [List.reverse_append, List.reverse_replicate, List.reverse_reverse] at hrev
  exact hrev.symm

theorem byteSize_slashes (n : Nat) : byteSize (List.replicate n '/') = n := by
  induction n with
  | zero => rfl
  | succ n ih =>
    have hslash : '/'.utf8Size = 1 := by decide
    rw [List.replicate_succ, byteSize_cons, ih, hslash]
    omega

/-- **A word keeps its first character.** What is given back are slashes
that come after it. -/
theorem reaches_inWord {c : Cursor} {ch : Char} (h : c.token = [ch]) : c.Reaches (inWord c) := by
  have htook := took_skip isWordChar c
  have htail : (c.skip isWordChar).token.tail = c.rest.takeWhile isWordChar := by
    rw [htook.token, h]
    rfl
  -- the slashes given back end what was read after the first character
  obtain ⟨stem, hstem⟩ := exists_append_trailingSlashes (c.rest.takeWhile isWordChar)
  refine ⟨stem, ?_⟩
  simp only [inWord, htail]
  rw [hstem] at htook
  have hback := htook.unread
  rwa [byteSize_slashes] at hback

theorem advances_inTag {c : Cursor} (hc : c.token = []) (hrest : c.rest ≠ []) (s : State) :
    c.Advances (inTag c s).cursor := by
  unfold inTag
  split
  · rename_i hnext
    exact absurd (next?_eq_none hnext) hrest
  · rename_i ch d hd
    have hadv := advances_next? hd
    split
    · exact hadv
    split
    · exact hadv
    split
    · exact hadv
    split
    · exact hadv.trans_reaches (reaches_read _ d)
    split
    · exact hadv.trans_reaches (reaches_read _ d)
    · -- the word's first character is the whole token so far
      have htoken : d.token = [ch] := by rw [(took_next? hd).token, hc, List.nil_append]
      exact hadv.trans_reaches (reaches_inWord htoken)

theorem advances_readPiece {c : Cursor} (hc : c.token = []) (hrest : c.rest ≠ []) (s : State) :
    c.Advances (readPiece c s).cursor := by
  unfold readPiece
  split
  · exact advances_inText hrest s
  · exact advances_inTag hc hrest s
  · exact advances_inValue _ hrest s
  · exact advances_inVerbatim _ hrest s
  · exact advances_inDoctype hrest s

/-- **The markup tokenizers consume**, in every zone and at every stage of a
tag. -/
theorem Setup.tokenizer_consumes (m : Setup) : m.tokenizer.Consumes := by
  intro c s hc hrest
  change c.Advances (m.token c s).cursor
  simp only [token]
  split
  · rename_i d hblanks
    exact advances_readWhile? hblanks
  · have hpiece := advances_readPiece hc hrest (enter c s)
    split
    · exact hpiece
    · exact hpiece

end Markup

end MixedMarkup
