import BulkSync.Proofs.Memory.Superstep

set_option autoImplicit false

namespace BulkSync.Memory

section Reads

-- All that can be asked of memory is answered alike.
structure SameReads (m n : Memory) : Prop where
  answers : ∀ r, m.answer r = n.answer r
  display : m.display = n.display
  decodes : ∀ (α : Type) [Wire α] key, m.getDecoded α key = n.getDecoded α key

theorem sameReads_of_previous {m n : Memory} (readable : m.previous = n.previous)
    (answers : ∀ r, m.answer r = n.answer r) : m.SameReads n where
  answers := answers
  display := by simp only [Memory.display, size, readable]
  decodes := by simp only [getDecoded, get, readable, implies_true]

theorem sameReads_of_frame {m n : Memory} (frames : m.frame = n.frame) : m.SameReads n :=
  sameReads_of_previous (previous_congr frames) (answer_congr frames)

end Reads

theorem after_append (m : Memory) (ops later : List Operation) :
    m.after (ops ++ later) = (m.after ops).after later := by
  induction ops generalizing m with
  | nil => rfl
  | cons op rest ih => exact ih (m.perform op).2

-- A superstep that is aborted: its writes, and the rollback.
def aborted (ws : List Write) : List Operation := ws.map .write ++ [.rollback]

theorem after_aborted (m : Memory) (ws : List Write) : m.after (aborted ws) = m.rollback := by
  have written : m.after (aborted ws) = (m.writeAll ws).rollback := after_append m _ _
  rw [written, rollback_congr (m.frame_writeAll ws)]

theorem frame_rollback (m : Memory) : m.rollback.frame = m.frame := by
  simp [frame, rollback, Slot.bare]

theorem commit_of_level {m : Memory} (level : m.Level) : m.commit = m := by
  cases m
  simpa [commit, Level] using level

theorem rollback_rollback {m : Memory} (typed : m.Typed) : m.rollback.rollback = m.rollback :=
  rollback_of_level (level_rollback typed)

structure Erases (m : Memory) : Prop where
  results : ∀ ws later, (m.after (aborted ws)).events later = m.events later
  reads : ∀ ws later, (m.after (aborted ws ++ later)).SameReads (m.after later)

theorem rollback_erases {m : Memory} {past : List Event} (reached : m.Reached past) :
    (Settled past → m.Erases) ∧ m.rollback.rollback = m.rollback ∧
      m.rollback.commit.SameReads m := by
  have kept := reached.kept
  refine ⟨fun settled => ?_, rollback_rollback kept.typed, ?_⟩
  · have restored (ws : List Write) : m.after (aborted ws) = m :=
      (m.after_aborted ws).trans (rollback_of_level (kept.level settled))
    constructor
    case results =>
      intro ws later
      rw [restored]
    case reads =>
      intro ws later
      rw [after_append, restored]
      exact sameReads_of_frame rfl
  · rw [commit_of_level (level_rollback kept.typed)]
    exact sameReads_of_frame m.frame_rollback

theorem rollback_erases_mixed :
    ∃ start, ofKeys [⟨"hits", .integer⟩, ⟨"over", .boolean⟩, ⟨"last", .blob⟩] = .ok start ∧
      Settled (start.events opening) ∧
      -- A key that was blank is written, and one that was not.
      (start.after opening).cell "over" = none ∧
      ((start.after opening).writeAll mixed).cell "over" = some (.boolean true) ∧
      ((start.after opening).writeAll mixed).cell "hits" = some (.integer (4 - Int64.minValue)) ∧
      (start.after opening).Erases ∧
      (start.after opening).rollback.commit.SameReads (start.after opening) := by
  obtain ⟨start, new, settled, blank, filled, hits⟩ :
      ∃ start, ofKeys [⟨"hits", .integer⟩, ⟨"over", .boolean⟩, ⟨"last", .blob⟩] = .ok start ∧
        Settled (start.events opening) ∧
        (start.after opening).cell "over" = none ∧
        ((start.after opening).writeAll mixed).cell "over" = some (.boolean true) ∧
        ((start.after opening).writeAll mixed).cell "hits" =
          some (.integer (4 - Int64.minValue)) := by
    refine ⟨_, rfl, ?_, ?_, ?_, ?_⟩ <;> decide +kernel
  obtain ⟨erases, -, barrier⟩ := rollback_erases (.after new opening)
  exact ⟨start, new, settled, blank, filled, hits, erases settled, barrier⟩

end BulkSync.Memory
