import Rill.Proofs.Progress

/-!
# Logged — the log of a listing tells the same as its result

What the scan notes and what is reported behind it come from two places.  Both tell the diagnostics,
one by one and in order.

* `Log.Record`, `Log.Entry.record` — what there is to be seen of an entry;
* `Scanner.Logged s` — so far the scan has noted each diagnostic and nothing else: every step keeps
  it so (`Scanner.Takes.logged`);
* `Listing.log_ofSource` — the whole log, entry by entry;
* `listing_log_record` — and all that there is to be seen of it.
-/

namespace Rill

/-! ## What is to be seen of an entry -/

namespace Log

/-- The scan as a span of time has a beginning and an end; an event has none. -/
inductive Record
  | span (name : String) (level : Level) (target : String) (fields : List Field)
  | enter
  | exit
  | event (message : String) (level : Level) (target : String) (fields : List Field)
  deriving DecidableEq, Repr

def Entry.record : Entry → Record
  | .scanAnnounced size policy =>
      .span ScanContext.name ScanContext.level ScanContext.target (ScanContext.fields size policy)
  | .scanBegun => .enter
  | .scanEnded => .exit
  | .event e => .event e.message e.level e.target e.fields

end Log

/-! ## What the scan notes -/

namespace Scanner

variable {s t : Scanner} {source : String} {policy : Policy}

def Logged (s : Scanner) : Prop :=
  s.events.toList = s.diagnostics.toList.map Diagnostic.event

/-- Whatever is unknown is noted where the diagnostic is made. -/
theorem Takes.logged (h : s.Takes t) (hs : s.Logged) : t.Logged := by
  unfold Logged at hs ⊢
  cases h with
  | gap => exact hs
  | lexeme => simp [moveTo, note, hs]

theorem Reachable.logged (h : Reachable source policy s) : s.Logged := by
  induction h with
  | start => rfl
  | step hs hend hstep ih => exact (hs.takes_of_step hend hstep).logged ih

end Scanner

/-! ## The whole log -/

namespace Listing

theorem log_ofSource (source : String) (policy : Policy) :
    ∃ ts last, (lex source policy).tokens = ts ++ [Token.endOfInput last] ∧
      (ofSource source policy).log =
        [.scanAnnounced source.utf8ByteSize policy, .scanBegun] ++
          (lex source policy).diagnostics.map (fun d => .event d.event) ++
          [.event (.scanComplete (lex source policy).tokens.length
            (lex source policy).diagnostics.length last), .scanEnded] ++
          (lex source policy).diagnostics.map report := by
  rcases Scanner.exists_ofSource_eq_finish source policy with ⟨_, s, hs, -, -, hfinish⟩
  have hlogged : s.events.toList = s.diagnostics.toList.map Diagnostic.event :=
    hs.reachable.logged
  refine ⟨s.tokens.toList, s.line, ?_, ?_⟩
  · simp [lex, lexWithLog, hfinish, Scanner.finish]
  · simp [ofSource, lex, lexWithLog, hfinish, Scanner.finish, hlogged]

end Listing

/-- The log of a listing is this and nothing else: the scan is announced with the size of the source
and the policy, and begins; each diagnostic is noted, with its text, line and span; the numbers of
tokens and diagnostics and the line of the end of the input are noted, and the scan ends; and each
diagnostic is reported, in the same order. -/
theorem listing_log_record (source : String) (policy : Policy) :
    ∃ ts last, (lex source policy).tokens = ts ++ [Token.endOfInput last] ∧
      (Listing.ofSource source policy).log.map Log.Entry.record =
        [.span "lex_with_config" .debug "rill_lexer"
            [⟨"len", .number source.utf8ByteSize⟩, ⟨"policy", .plain policy.label⟩],
          .enter] ++
        (lex source policy).diagnostics.map (fun d =>
          .event "unrecognized lexeme" .trace "rill_lexer::scanner"
            [⟨"text", .quoted d.text⟩, ⟨"line", .number d.line.toNat⟩,
              ⟨"span", .plain d.span.render⟩]) ++
        [.event "scan complete" .debug "rill_lexer::scanner"
            [⟨"tokens", .number (lex source policy).tokens.length⟩,
              ⟨"errors", .number (lex source policy).diagnostics.length⟩,
              ⟨"lines", .number last.toNat⟩],
          .exit] ++
        (lex source policy).diagnostics.map (fun d =>
          .event "unrecognized lexeme" .warn "rillc::commands::lex"
            [⟨"line", .number d.line.toNat⟩, ⟨"span", .plain d.span.render⟩,
              ⟨"text", .plain d.text⟩]) := by
  rcases Listing.log_ofSource source policy with ⟨ts, last, htokens, hlog⟩
  refine ⟨ts, last, htokens, ?_⟩
  simp only [hlog, List.map_append, List.map_map]
  rfl

end Rill
