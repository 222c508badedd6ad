import Rill.Cursor.Boundary
import Rill.Proofs.Runs

/-!
# Between — a cursor that stands between two texts

A cursor that is not inside a character cuts its source in two.  Named by the two halves, a cursor
is moved by moving text from the second half to the first, and no offset is computed.

* `Cursor.between before after` — the cursor where `before` ends and `after` begins;
* `eatWhile_between`, `advance_between`, `eatWhitespace_between` — moves over a known text;
* `sliceFrom_between` — what was moved over is what is cut out;
* `Utf8.exists_run` — every text has a first run of a class that tears no character apart.
-/

namespace Rill
namespace Cursor

open Utf8

variable {before after run text : String} {p : UInt8 → Bool}

def between (before after : String) : Cursor :=
  ⟨before ++ after, before.utf8ByteSize⟩

theorem start_eq_between (source : String) : start source = between "" source := by
  simp [start, between]

theorem exists_eq_between {c : Cursor} (hc : c.OnBoundary) :
    ∃ before after, c = between before after := by
  rcases c with ⟨source, pos⟩
  rcases exists_append_of_isCharBoundary hc with ⟨before, after, rfl, rfl⟩
  exact ⟨before, after, rfl⟩

/-! ## Looking -/

@[simp]
theorem rest_between (before after : String) : (between before after).rest = bytes after := by
  simp [rest, between, ← length_bytes]

@[simp]
theorem current?_between (before after : String) :
    (between before after).current? = (bytes after).head? := by
  simp [current?_eq_head?]

theorem atEnd_between_iff : (between before after).atEnd = true ↔ after = "" := by
  simp [atEnd_iff_current?_eq_none]

/-! ## Moving -/

theorem eatWhile_between (hrun : ∀ b ∈ bytes run, p b = true) (hafter : Stops p after) :
    (between before (run ++ after)).eatWhile p = between (before ++ run) after := by
  -- A cursor is a source and an offset; the run leaves the one and moves the other by its length.
  have hsource : ((between before (run ++ after)).eatWhile p).source = before ++ run ++ after := by
    rw [source_eatWhile, between, String.append_assoc]
  have hpos : ((between before (run ++ after)).eatWhile p).pos = (before ++ run).utf8ByteSize := by
    rw [pos_eatWhile, rest_between, takeWhile_append_of_stops hrun hafter, length_bytes,
      String.utf8ByteSize_append]
    rfl
  rcases hc : (between before (run ++ after)).eatWhile p with ⟨source, pos⟩
  simp only [hc] at hsource hpos
  subst hsource hpos
  rfl

theorem advance_between {b : UInt8} (htext : bytes text = [b]) :
    (between before (text ++ after)).advance = between (before ++ text) after := by
  have hcurrent : (between before (text ++ after)).current? = some b := by
    simp [htext]
  have hsize : text.utf8ByteSize = 1 := by
    simp [← length_bytes, htext]
  rw [advance_of_current? hcurrent]
  simp [between, hsize]

theorem newlinesTo_between :
    (between before (run ++ after)).newlinesTo (before ++ run).utf8ByteSize = newlines run := by
  have hlen : (before ++ run).utf8ByteSize - (between before (run ++ after)).pos =
      (bytes run).length := by
    simp [between]
  rw [newlinesTo_eq_count, hlen]
  simp [newlines]

theorem eatWhitespace_between (hrun : ∀ b ∈ bytes run, Byte.isWhitespace b = true)
    (hafter : Stops Byte.isWhitespace after) :
    (between before (run ++ after)).eatWhitespace =
      (between (before ++ run) after, UInt32.ofNat (newlines run)) := by
  have hpos : (between (before ++ run) after).pos = (before ++ run).utf8ByteSize := rfl
  simp only [eatWhitespace, eatWhile_between hrun hafter, hpos, newlinesTo_between]

/-! ## Cutting -/

theorem sliceFrom_between (before text after : String) :
    (between (before ++ text) after).sliceFrom before.utf8ByteSize = .ok text := by
  have hle : before.utf8ByteSize ≤ (before ++ text).utf8ByteSize := by simp
  have hstart := isCharBoundary_append before (text ++ after)
  have hstop := isCharBoundary_append_append before text after
  refine slice_eq_ok_iff.2 ⟨hle, ?_⟩
  rw [between, String.append_assoc]
  exact ⟨hstart, hstop, (cut_append hstart hstop).symm⟩

end Cursor

/-! ## First runs -/

namespace Utf8

open Cursor

theorem exists_run {p : UInt8 → Bool} (hp : Byte.Whole p) (text : String) :
    ∃ run after, text = run ++ after ∧ (∀ b ∈ bytes run, p b = true) ∧ Stops p after := by
  have hboundary : ((start text).eatWhile p).OnBoundary :=
    onBoundary_eatWhile (onBoundary_start text) hp
  -- A cursor that goes through the run ends up between the two parts.
  rcases exists_eq_between hboundary with ⟨run, after, hc⟩
  have htext : text = run ++ after := by
    have hsource := source_eatWhile (start text) p
    rw [hc] at hsource
    exact hsource.symm
  have htake : bytes run = (bytes text).takeWhile p := by
    have hall : (start text).rest = bytes text := rfl
    have hrest : bytes after = (bytes text).dropWhile p := by
      simpa [hc, hall] using rest_eatWhile (start text) p
    have hsplit : (bytes text).takeWhile p ++ bytes after = bytes run ++ bytes after := by
      rw [hrest, List.takeWhile_append_dropWhile, ← hrest, htext, bytes_append]
    exact (List.append_cancel_right hsplit).symm
  refine ⟨run, after, htext, ?_, ?_⟩
  · intro b hb
    rw [htake] at hb
    exact List.all_eq_true.1 List.all_takeWhile b hb
  · intro b hb
    apply current?_eatWhile (start text) p
    simpa [hc] using hb

end Utf8
end Rill
