import Rill.Proofs.Spelling

/-!
# Rendering — a listing tells the kinds and lexemes of its tokens

Nothing in a listing is escaped, and a lexeme that the language does not have may look like a part
of one.  But no lexeme holds a space: so a lexeme that is shown is over at the next space, or where
the listing ends, with one more character behind it in either case.

* `Token.renderRest` — a listing from behind an entry on;
* `Token.render_append_inj` — an entry, and what is behind it, are told by the listing;
* `Token.renderRest_inj` — so are all the entries;
* `newlines_render_lex` — a listing is one line;
* `lex_render_eq_iff` — two listings are the same where the kinds and lexemes are.
-/

namespace Rill

open Utf8 Lexeme

namespace Byte

/-- Capital letters and underscores. -/
def isLabel (b : UInt8) : Bool :=
  isUpper b || b == 95

/-- Anything but a space. -/
def isSolid (b : UInt8) : Bool :=
  b != 32

end Byte

theorem Utf8.stops_append_of_head? {p : UInt8 → Bool} {s : String} {b : UInt8}
    (hs : (bytes s).head? = some b) (hb : p b = false) (text : String) : Stops p (s ++ text) := by
  intro c hc
  rw [head?_bytes_append (ne_empty_of_head? hs), hs] at hc
  cases hc
  exact hb

namespace Token

/-! ## Labels -/

theorem Kind.isLabel_of_mem_name (k : Kind) : ∀ b ∈ bytes k.name, Byte.isLabel b = true := by
  rcases k with ⟨_ | _⟩ | ⟨_ | _⟩ | _ <;> decide +kernel

def Kind.all : List Kind :=
  [.punctuation .semicolon, .punctuation .equals, .punctuation .leftParen,
    .punctuation .rightParen, .punctuation .plus, .keyword .printKw, .keyword .letKw,
    .keyword .whileKw, .keyword .ifKw, .keyword .thenKw, .keyword .elseKw, .identifier, .integer,
    .string, .endOfInput, .error]

/-- No two kinds have the same label. -/
theorem Kind.find?_name (k : Kind) : all.find? (fun k' => k'.name == k.name) = some k := by
  rcases k with ⟨_ | _⟩ | ⟨_ | _⟩ | _ <;> decide +kernel

theorem Kind.name_inj {k k' : Kind} (h : k.name = k'.name) : k = k' := by
  have hk := find?_name k
  rw [h, find?_name k'] at hk
  exact (Option.some.inj hk).symm

/-! ## Entries -/

/-- What an entry has behind its label. -/
def detail (t : Token) : String :=
  if t.kind.showsLexeme then " " ++ t.lexeme else ""

theorem render_eq (t : Token) : t.render = t.kind.name ++ t.detail := by
  unfold render detail
  split
  · simp
  · simp

/-- What a listing has behind an entry. -/
def renderRest : List Token → String
  | [] => "]"
  | t :: ts => ", " ++ (t.render ++ renderRest ts)

theorem renderAll_cons (t : Token) (ts : List Token) :
    renderAll (t :: ts) = "[" ++ (t.render ++ renderRest ts) := by
  have hrest : ", ".intercalate ((t :: ts).map render) ++ "]" = t.render ++ renderRest ts := by
    induction ts generalizing t with
    | nil => simp [renderRest]
    | cons u us ih =>
        rw [List.map_cons, List.map_cons, String.intercalate_cons_cons, renderRest, ← ih u]
        simp
  rw [renderAll, String.append_assoc, hrest]

/-- The character behind an entry, in front of what the listing goes on with. -/
def mark (after : String) : String :=
  if after = "" then "]" else ","

/-- A listing goes on with a space or not at all. -/
theorem exists_renderRest_eq (ts : List Token) :
    ∃ after, renderRest ts = mark after ++ after ∧ Stops Byte.isSolid after := by
  cases ts with
  | nil => exact ⟨"", rfl, stops_empty _⟩
  | cons t ts =>
      refine ⟨" " ++ (t.render ++ renderRest ts), ?_, stops_append_of_head? rfl (by decide) _⟩
      have hcomma : mark (" " ++ (t.render ++ renderRest ts)) = "," := if_neg (by simp)
      rw [hcomma, renderRest, ← String.append_assoc]
      rfl

theorem isSolid_of_mem_append_mark {x : String} (hx : ∀ b ∈ bytes x, Byte.isSolid b = true)
    (after : String) : ∀ b ∈ bytes (x ++ mark after), Byte.isSolid b = true := by
  have hmark : ∀ b ∈ bytes (mark after), Byte.isSolid b = true := by
    unfold mark
    split <;> decide +kernel
  intro b hb
  rw [bytes_append] at hb
  exact (List.mem_append.1 hb).elim (hx b) (hmark b)

theorem stops_detail_append (t : Token) (ts : List Token) :
    Stops Byte.isLabel (t.detail ++ renderRest ts) := by
  unfold detail
  split
  · rw [String.append_assoc]
    exact stops_append_of_head? rfl (by decide) _
  · cases ts with
    | nil => exact stops_append_of_head? (s := "]") rfl (by decide) ""
    | cons u us => exact stops_append_of_head? (s := ", ") rfl (by decide) _

theorem lexeme_append_inj {x y : String} (hx : ∀ b ∈ bytes x, Byte.isSolid b = true)
    (hy : ∀ b ∈ bytes y, Byte.isSolid b = true) {ts us : List Token}
    (h : x ++ renderRest ts = y ++ renderRest us) : x = y ∧ renderRest ts = renderRest us := by
  rcases exists_renderRest_eq ts with ⟨after, hts, hstops⟩
  rcases exists_renderRest_eq us with ⟨after', hus, hstops'⟩
  rw [hts, hus, ← String.append_assoc, ← String.append_assoc] at h
  -- Up to the next space the two agree; the last character before it is no part of the lexeme.
  rcases append_inj_of_stops (isSolid_of_mem_append_mark hx after) hstops
    (isSolid_of_mem_append_mark hy after') hstops' h with ⟨hrun, rfl⟩
  exact ⟨(String.append_left_inj _).1 hrun, hts.trans hus.symm⟩

theorem render_append_inj {t u : Token} (ht : ∀ b ∈ bytes t.lexeme, Byte.isSolid b = true)
    (hu : ∀ b ∈ bytes u.lexeme, Byte.isSolid b = true) {ts us : List Token}
    (h : t.render ++ renderRest ts = u.render ++ renderRest us) :
    t.kind = u.kind ∧ (t.kind.showsLexeme = true → t.lexeme = u.lexeme) ∧
      renderRest ts = renderRest us := by
  rw [render_eq, render_eq, String.append_assoc, String.append_assoc] at h
  rcases append_inj_of_stops t.kind.isLabel_of_mem_name (stops_detail_append t ts)
    u.kind.isLabel_of_mem_name (stops_detail_append u us) h with ⟨hname, hrest⟩
  have hkind : t.kind = u.kind := Kind.name_inj hname
  refine ⟨hkind, ?_⟩
  by_cases hshows : t.kind.showsLexeme = true
  · have hshows' : u.kind.showsLexeme = true := hkind ▸ hshows
    simp only [detail, hshows, hshows', if_true, String.append_assoc,
      String.append_right_inj] at hrest
    rcases lexeme_append_inj ht hu hrest with ⟨hlexeme, hrest⟩
    exact ⟨fun _ => hlexeme, hrest⟩
  · have hshows' : ¬ u.kind.showsLexeme = true := hkind ▸ hshows
    simp only [detail, hshows, hshows'] at hrest
    exact ⟨fun h => absurd h hshows, by simpa using hrest⟩

/-! ## Listings -/

/-- What a listing can be read back for: no space in the lexeme, and no lexeme that is not shown and
not known from the kind. -/
structure Listed (policy : Policy) (t : Token) : Prop where
  admits : t.kind.Admits policy t.lexeme
  isSolid : ∀ b ∈ bytes t.lexeme, Byte.isSolid b = true

/-- A kind whose label says it all has one lexeme only. -/
theorem Kind.Admits.lexeme_inj {k : Kind} {p q : Policy} {x y : String} (hx : k.Admits p x)
    (hy : k.Admits q y) (hshows : ¬ k.showsLexeme = true) : x = y := by
  cases hx with
  | @punctuation b mark hb =>
      have htable : ∀ e ∈ Punctuation.table, ∀ e' ∈ Punctuation.table, e.2 = e'.2 → e.1 = e'.1 := by
        decide
      cases hy with
      | @punctuation b' _ hb' =>
          have hbyte : b = b' := htable _ hb _ hb' rfl
          rw [hbyte]
  | keyword hword =>
      have htable : ∀ e ∈ Keyword.table, ∀ e' ∈ Keyword.table, e.2 = e'.2 → e.1 = e'.1 := by
        decide
      cases hy with
      | keyword hword' => exact htable _ hword _ hword' rfl
  | endOfInput =>
      cases hy
      rfl
  | integer | identifier | error => exact absurd rfl hshows

/-- Where one listing is over, the other goes on with a comma. -/
theorem renderRest_nil_ne_cons (t : Token) (ts : List Token) :
    renderRest [] ≠ renderRest (t :: ts) := by
  intro h
  have hover : (bytes (renderRest [])).head? = some 93 := rfl
  have hcomma : (bytes (renderRest (t :: ts))).head? = some 44 := by
    rw [renderRest, head?_bytes_append (by decide)]
    rfl
  rw [h, hcomma] at hover
  exact absurd hover (by decide)

theorem renderRest_inj {p q : Policy} {ts us : List Token} (hts : ∀ t ∈ ts, t.Listed p)
    (hus : ∀ u ∈ us, u.Listed q) (h : renderRest ts = renderRest us) :
    ts.map (fun t => (t.kind, t.lexeme)) = us.map (fun t => (t.kind, t.lexeme)) := by
  induction ts generalizing us with
  | nil =>
      cases us with
      | nil => rfl
      | cons u us => exact absurd h (renderRest_nil_ne_cons u us)
  | cons t ts ih =>
      cases us with
      | nil => exact absurd h.symm (renderRest_nil_ne_cons t ts)
      | cons u us =>
          rcases List.forall_mem_cons.1 hts with ⟨ht, hts⟩
          rcases List.forall_mem_cons.1 hus with ⟨hu, hus⟩
          have hentry := (String.append_right_inj ", ").1 h
          rcases render_append_inj ht.isSolid hu.isSolid hentry with ⟨hkind, hshown, hrest⟩
          have hlexeme : t.lexeme = u.lexeme := by
            by_cases hshows : t.kind.showsLexeme = true
            · exact hshown hshows
            · exact ht.admits.lexeme_inj (hkind ▸ hu.admits) hshows
          rw [List.map_cons, List.map_cons, ih hts hus hrest, hkind, hlexeme]

/-- A token is written the same, whatever its line. -/
theorem map_render_eq (ts : List Token) :
    ts.map render = (ts.map fun t => (t.kind, t.lexeme)).map fun e =>
      render ⟨e.1, e.2, LineNumber.first⟩ := by
  rw [List.map_map]
  rfl

theorem renderAll_eq_iff {p q : Policy} {ts us : List Token} (hts : ∀ t ∈ ts, t.Listed p)
    (hus : ∀ u ∈ us, u.Listed q) (hne : ts ≠ []) (hne' : us ≠ []) :
    renderAll ts = renderAll us ↔
      ts.map (fun t => (t.kind, t.lexeme)) = us.map (fun t => (t.kind, t.lexeme)) := by
  constructor
  · intro h
    rcases List.exists_cons_of_ne_nil hne with ⟨t, ts, rfl⟩
    rcases List.exists_cons_of_ne_nil hne' with ⟨u, us, rfl⟩
    rw [renderAll_cons, renderAll_cons, String.append_right_inj] at h
    apply renderRest_inj hts hus
    rw [renderRest, renderRest, h]
  · intro h
    rw [renderAll, renderAll, map_render_eq, map_render_eq us, h]

/-! ## One line -/

@[simp]
theorem Kind.newlines_name (k : Kind) : newlines k.name = 0 := by
  refine List.count_eq_zero.2 fun hmem => ?_
  have hlabel : Byte.isLabel Byte.newline = true := k.isLabel_of_mem_name _ hmem
  exact absurd hlabel (by decide)

/-- Nothing but the lexeme can bring a line end into an entry. -/
theorem newlines_render {t : Token} (h : newlines t.lexeme = 0) : newlines t.render = 0 := by
  have hspace : newlines " " = 0 := by decide +kernel
  rw [render_eq, detail]
  split <;> simp [hspace, h]

theorem newlines_renderRest {ts : List Token} (h : ∀ t ∈ ts, newlines t.lexeme = 0) :
    newlines (renderRest ts) = 0 := by
  have hover : newlines "]" = 0 := by decide +kernel
  have hcomma : newlines ", " = 0 := by decide +kernel
  induction ts with
  | nil => exact hover
  | cons t ts ih =>
      rcases List.forall_mem_cons.1 h with ⟨ht, hts⟩
      simp [renderRest, hcomma, newlines_render ht, ih hts]

theorem newlines_renderAll {ts : List Token} (h : ∀ t ∈ ts, newlines t.lexeme = 0) :
    newlines (renderAll ts) = 0 := by
  have hopen : newlines "[" = 0 := by decide +kernel
  cases ts with
  | nil => decide +kernel
  | cons t ts =>
      rcases List.forall_mem_cons.1 h with ⟨ht, hts⟩
      simp [renderAll_cons, hopen, newlines_render ht, newlines_renderRest hts]

end Token

namespace Layout

theorem listed_of_mem_tokens {l : Layout} {policy : Policy} {t : Token}
    (h : t ∈ (l.lexed policy).tokens) : t.Listed policy := by
  refine ⟨admits_of_mem_tokens h, ?_⟩
  rcases mem_lexed_tokens_iff.1 h with ⟨p, hp, _, rfl⟩ | rfl
  · -- A space is whitespace, and there is none in a lexeme.
    intro b hb
    have hspace : Byte.isWhitespace b = false := (isLexeme_of_mem_placed hp).isWhitespace_of_mem hb
    refine bne_iff_ne.2 ?_
    rintro rfl
    exact absurd hspace (by decide)
  · have hend : ∀ b ∈ bytes Token.endLexeme, Byte.isSolid b = true := by decide +kernel
    exact hend

theorem newlines_lexeme_of_mem_tokens {l : Layout} {policy : Policy} {t : Token}
    (h : t ∈ (l.lexed policy).tokens) : newlines t.lexeme = 0 := by
  rcases mem_lexed_tokens_iff.1 h with ⟨p, hp, _, rfl⟩ | rfl
  · exact (isLexeme_of_mem_placed hp).newlines_eq_zero
  · have hend : newlines Token.endLexeme = 0 := by decide +kernel
    exact hend

end Layout

/-- A listing is one line, whatever is in the source. -/
@[simp]
theorem newlines_render_lex (source : String) (policy : Policy) :
    newlines (lex source policy).render = 0 := by
  rcases Layout.exists_text_eq source with ⟨l, rfl⟩
  rw [Layout.lex_text]
  exact Token.newlines_renderAll fun _ => Layout.newlines_lexeme_of_mem_tokens

/-- Listings tell sources apart as far as kinds and lexemes do: the same listing comes from tokens
of the same kinds and lexemes, whatever is in the sources and whatever the policies are. -/
theorem lex_render_eq_iff (source source' : String) (policy policy' : Policy) :
    (lex source policy).render = (lex source' policy').render ↔
      (lex source policy).tokens.map (fun t => (t.kind, t.lexeme)) =
        (lex source' policy').tokens.map (fun t => (t.kind, t.lexeme)) := by
  rcases Layout.exists_text_eq source with ⟨l, rfl⟩
  rcases Layout.exists_text_eq source' with ⟨m, rfl⟩
  rw [Layout.lex_text, Layout.lex_text]
  exact Token.renderAll_eq_iff (fun _ => Layout.listed_of_mem_tokens)
    (fun _ => Layout.listed_of_mem_tokens) (by simp [Layout.lexed]) (by simp [Layout.lexed])

/-- A lexeme can look like the end of a listing, and yet it is not taken for one. -/
example : (lex "EOF], x" .errorToken).render = "[ERROR EOF],, IDENT x, EOF]" := by decide +kernel

end Rill
