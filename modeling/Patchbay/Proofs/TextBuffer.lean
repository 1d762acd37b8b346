import Patchbay.Proofs.Owner
import Patchbay.Proofs.Text.Lossy
import Patchbay.Host
import Mathlib.Data.List.DropRight

/-!
The text of an editor and the source that is run of it. The zero bytes at its end are cut off before the
rest is read; what is read is the same as if they had been read and cut off after, since no character but
the NUL has a zero byte, and no part that is broken takes one in.
-/
namespace Patchbay

open Text.Utf8

namespace TextBuffer

theorem withoutTerminators_last (b : Bytes) : (withoutTerminators b).getLast? ≠ some 0 := by
  intro last
  obtain ⟨there, last⟩ := List.mem_getLast?_eq_getLast last
  exact List.rdropWhile_last_not (· == 0) b there (beq_iff_eq.mpr last.symm)

/-- A text is what is kept of it and the zero bytes behind. -/
theorem terminators (b : Bytes) : ∃ n, b = withoutTerminators b ++ List.replicate n 0 := by
  have zeros := List.eq_replicate_of_mem (a := 0) (l := b.rtakeWhile (· == 0)) fun x member => by
    simpa using List.mem_rtakeWhile_imp member
  refine ⟨(b.rtakeWhile (· == 0)).length, ?_⟩
  rw [← zeros]
  exact (List.rdropWhile_append_rtakeWhile ..).symm

theorem withoutTerminators_append {body : Bytes} (ends : body.getLast? ≠ some 0) (n : Nat) :
    withoutTerminators (body ++ List.replicate n 0) = body := by
  induction n with
  | zero =>
    rw [List.replicate_zero, List.append_nil]
    refine List.rdropWhile_eq_self_iff.mpr fun there zero => ends ?_
    rw [List.getLast?_eq_getLast_of_ne_nil there, beq_iff_eq.mp zero]
  | succ n ih =>
    rw [List.replicate_succ', ← List.append_assoc]
    exact (List.rdropWhile_concat_pos _ _ 0 rfl).trans ih

theorem withoutTerminators_more (b : Bytes) (k : Nat) :
    withoutTerminators (b ++ List.replicate k 0) = withoutTerminators b := by
  obtain ⟨n, whole⟩ := terminators b
  conv_lhs => rw [whole, List.append_assoc, List.replicate_append_replicate]
  exact withoutTerminators_append (withoutTerminators_last b) (n + k)

theorem reading_source (b : Bytes) : Reading (withoutTerminators b) (toSource ⟨b⟩).toList := by
  rw [toSource, lossyString, String.toList_ofList]
  exact reading_decodeLossy _

theorem source_last (b : Bytes) : (toSource ⟨b⟩).toList.getLast? ≠ some '\x00' := fun last =>
  withoutTerminators_last b ((reading_source b).last_iff.mpr last)

theorem source_stored (b : Bytes) : toSource ⟨ofString (toSource ⟨b⟩)⟩ = toSource ⟨b⟩ := by
  have ends := mt (reading_encode (toSource ⟨b⟩).toList).last_iff.mp (source_last b)
  have kept := withoutTerminators_append ends 0
  rw [List.replicate_zero, List.append_nil] at kept
  conv_lhs => rw [toSource]
  rw [ofString, kept, lossyString_encode, String.ofList_toList]

end TextBuffer

namespace Owner

theorem saveEditor_scripts (o : Owner) (b : Bytes) :
    (o.saveEditor b).owner.scripts =
      (o.scripts.executeBuffer (o.settings.file.getD "") (⟨b⟩ : TextBuffer).toSource).after := by
  unfold saveEditor closeEditor TextBuffer.setText
  dsimp only
  split <;> rfl

theorem saveEditor_of_source {b c : Bytes} (o : Owner)
    (same : (⟨c⟩ : TextBuffer).toSource = (⟨b⟩ : TextBuffer).toSource) :
    o.saveEditor c = { o.saveEditor b with owner := (o.saveEditor b).owner.closeEditor c } := by
  unfold saveEditor closeEditor TextBuffer.setText
  dsimp only
  rw [same]
  generalize o.scripts.executeBuffer (o.settings.file.getD "") (⟨b⟩ : TextBuffer).toSource = a
  cases outcome : a.outcome <;> rfl

end Owner

namespace Host

theorem absorb_done {r : Response} (h : Host) (i : Identity) (done : r.tasks = []) :
    h.absorb i r = { result := (), host := h.update i r.owner, events := r.events, log := r.log } := by
  rw [absorb, done, List.foldl_nil, List.map_nil, List.append_nil]
  rfl

theorem editorClosed_update (h : Host) {i : Identity} {o : Owner} (found : h.owner? i = some o)
    (later : Owner) (text : Bytes) :
    ((h.update i later).editorClosed i text).host = h.update i (later.closeEditor text) := by
  have there : (h.update i later).owner? i = some later := by
    have replaced := h.roster.get?_replace i i later
    rw [if_pos rfl, show h.roster.get? i = some o from found] at replaced
    exact replaced
  rw [editorClosed, there]
  simp only [update, Roster.replace_replace]

theorem editorSaved_of_source {b c : Bytes} (h : Host) (i : Identity)
    (same : (⟨c⟩ : TextBuffer).toSource = (⟨b⟩ : TextBuffer).toSource) :
    h.editorSaved i c =
      { h.editorSaved i b with host := ((h.editorSaved i b).host.editorClosed i c).host } := by
  unfold editorSaved
  cases found : h.owner? i with
  | none =>
    dsimp only
    rw [editorClosed, found]
  | some o =>
    dsimp only
    rw [h.absorb_done i (o.tasks_saveEditor b), h.absorb_done i (o.tasks_saveEditor c),
      h.editorClosed_update found, o.saveEditor_of_source same]

end Host

namespace TextBuffer

/-- The source of an editor's text is what is read of it before the zero bytes at its end, whatever the text
was before: all of it, if it is text throughout. It ends in no NUL and is its own source, and zero bytes at the
end change neither it nor what a save does, but for the text that is kept. -/
theorem source_of_text (old : TextBuffer) (b : Bytes) :
    let text := (old.setText b).toSource
    ∃ body n,
      b = body ++ List.replicate n 0 ∧ body.getLast? ≠ some 0 ∧
      (∀ s, Reading body s ↔ s = text.toList) ∧
      Reading b (text.toList ++ List.replicate n '\x00') ∧
      (∀ s, b = encode s → s = text.toList ++ List.replicate n '\x00' ∧ ofString text = body) ∧
      text.toList.getLast? ≠ some '\x00' ∧
      (∀ other : TextBuffer, (other.setText (ofString text)).toSource = text) ∧
      (∀ (other : TextBuffer) (k : Nat), (other.setText (b ++ List.replicate k 0)).toSource = text) ∧
      ∀ k,
        (∀ o : Owner, (o.saveEditor (b ++ List.replicate k 0)).owner.scripts =
          (o.scripts.executeBuffer (o.settings.file.getD "") text).after) ∧
        ∀ (h : Host) (i : Identity), h.editorSaved i (b ++ List.replicate k 0) =
          { h.editorSaved i b with
            host := ((h.editorSaved i b).host.editorClosed i (b ++ List.replicate k 0)).host } := by
  intro text
  obtain ⟨n, whole⟩ := terminators b
  have body := reading_source b
  have all : Reading b (text.toList ++ List.replicate n '\x00') := by
    have reading := body.append_zeros n
    rwa [← whole] at reading
  have more (k : Nat) : toSource ⟨b ++ List.replicate k 0⟩ = toSource ⟨b⟩ := by
    rw [toSource, withoutTerminators_more]
    rfl
  refine ⟨withoutTerminators b, n, whole, withoutTerminators_last b, fun s => ?_, all, fun s written => ?_,
    source_last b, fun _ => source_stored b, fun _ => more, fun k => ⟨fun o => ?_, fun h i => ?_⟩⟩
  · rw [reading_iff, ← reading_iff.mp body]
    rfl
  · have same : s = text.toList ++ List.replicate n '\x00' := by
      rw [reading_iff.mp all]
      exact reading_iff.mp (written ▸ reading_encode s)
    refine ⟨same, ?_⟩
    rw [same, encode_append, encode_zeros] at written
    exact List.append_cancel_right (written.symm.trans whole)
  · rw [o.saveEditor_scripts, more]
    rfl
  · exact h.editorSaved_of_source i (more k)

end TextBuffer

end Patchbay
