import Rill.Proofs.Reading

/-!
# Lexing — what the tokens of a source are

* `lex_errorToken_exists_layout` — from a source: its tokens are its lexemes, each in its line;
* `lex_errorToken_text` — from lexemes: they are the tokens that come back, however they are laid
  out;
* `lex_drop_eq_filter` — the two ways to treat what the language does not have.  Both go through the
  same layout, and differ only in which of its lexemes get a token.
-/

namespace Rill

open Utf8 Layout

/-- Nothing of a source is lost, made up or put in another place: between whitespace it is cut into
lexemes, as long as they can be, and each is a token.  Lines are exact up to the last one that a
line number can tell from the next. -/
theorem lex_errorToken_exists_layout (source : String) :
    ∃ l : Layout, l.text = source ∧
      ∃ (ts : List Token) (last : LineNumber),
        (lex source .errorToken).tokens = ts ++ [Token.endOfInput last] ∧
        ts.map (fun t => (t.kind, t.lexeme)) = l.lexemes.map (fun x => (Lexeme.kind x, x)) ∧
        (newlines source ≤ UInt32.size - 2 →
          last.toNat = 1 + newlines source ∧
          ∀ ps p qs, l.pieces = ps ++ p :: qs →
            ts[ps.length]?.map (fun t => t.line.toNat) =
              some (1 + newlines (write ps p.gap))) := by
  rcases exists_text_eq source with ⟨l, rfl⟩
  refine ⟨l, rfl, l.placed.map Placed.token, l.lastLine, ?_, map_token_placed l, ?_⟩
  · simp [lexed]
  · intro hbound
    refine ⟨counts_lastLine hbound, ?_⟩
    intro ps p qs hpieces
    -- As many tokens as pieces come first, and the text in front of `p` ends in its gap.
    have hget := placed_getElem? hpieces
    have hline : (lineFrom LineNumber.first ps p.gap).toNat = 1 + newlines (write ps p.gap) :=
      counts_front hbound hpieces
    simp [hget, Placed.token, hline]

/-- Lexing undoes printing: the lexemes come back, each with its kind, whatever whitespace was put
around them.  So the kinds and lexemes do not depend on the whitespace, and a source is the text of
one layout only. -/
theorem lex_errorToken_text (l : Layout) :
    (∃ (ts : List Token) (last : LineNumber),
      (lex l.text .errorToken).tokens = ts ++ [Token.endOfInput last] ∧
      ts.map (fun t => (t.kind, t.lexeme)) = l.lexemes.map (fun x => (Lexeme.kind x, x))) ∧
    (∀ m : Layout, m.lexemes = l.lexemes →
      (lex m.text .errorToken).tokens.map (fun t => (t.kind, t.lexeme)) =
        (lex l.text .errorToken).tokens.map (fun t => (t.kind, t.lexeme))) ∧
    ∀ m : Layout, m.text = l.text → m = l := by
  have htokens : ∀ m : Layout, (lex m.text .errorToken).tokens =
      m.placed.map Placed.token ++ [Token.endOfInput m.lastLine] := by
    intro m
    simp [lexed]
  refine ⟨⟨_, _, htokens l, map_token_placed l⟩, ?_, ?_⟩
  · -- The lexemes tell all tokens but the last one, which is the same for every source.
    intro m hm
    rw [htokens, htokens, List.map_append, List.map_append, map_token_placed, map_token_placed, hm]
    rfl
  · intro m hm
    exact text_inj.1 hm

/-- Dropping takes the error tokens out of the list, and changes nothing else.  These tokens tell
the same as the diagnostics, one by one and in the same order. -/
theorem lex_drop_eq_filter (source : String) :
    (lex source .drop).diagnostics = (lex source .errorToken).diagnostics ∧
    (lex source .drop).tokens =
      (lex source .errorToken).tokens.filter (fun t => t.kind ≠ .error) ∧
    ((lex source .errorToken).tokens.filter (fun t => t.kind = .error)).map
        (fun t => (t.lexeme, t.line)) =
      (lex source .errorToken).diagnostics.map (fun d => (d.text, d.line)) ∧
    (lex source .errorToken).tokens.length =
      (lex source .drop).tokens.length + (lex source .drop).diagnostics.length := by
  rcases exists_text_eq source with ⟨l, rfl⟩
  have herrors := Placed.filter_error_tokens l.placed
  have hdrop := Placed.tokens_drop l.placed
  simp only [lex_text, lexed]
  -- Both lists end in the token of the end of the input, which is no error.
  refine ⟨trivial, ?_, ?_, ?_⟩
  · simp [hdrop, Token.endOfInput]
  · simp [herrors, Token.endOfInput, Placed.diagnostics, Placed.token, Placed.diagnostic]
  · have hlength := Placed.length_eq_add l.placed
    simp only [Placed.tokens_errorToken, List.length_append, List.length_map]
    omega

end Rill
