import Gortsp.EventHandler

namespace Gortsp
set_option autoImplicit true

/-- The loop takes turns that end at these indices, and then stops. -/
inductive ReadLoop.Turns : List Nat → ReadLoop ε ω → ReadLoop ε ω → Prop where
  | stop {v w : ReadLoop ε ω} (h : v.turn = .ok (none, w)) : Turns [] v w
  | next {v w u : ReadLoop ε ω} {n : Nat} {ns : List Nat}
      (h : v.turn = .ok (some n, w)) (rest : Turns ns w u) : Turns (n :: ns) v u

theorem ReadLoop.Turns.drain {v w : ReadLoop ε ω} (h : Turns ns v w) :
    BufferEvent.drain v = .ok w := by
  induction h with
  | stop h => exact BufferEvent.drain_stop h
  | next h rest ih =>
    rw [BufferEvent.drain_next h]
    exact ih

def Line.TerminatedAt (line : Line) (n : Nat) : Prop := line.bytes[n]? = some 0

theorem Line.zero_terminated : Line.TerminatedAt .zero 0 := by
  rw [Line.TerminatedAt, CharArray.zero, List.getElem?_replicate]
  rfl

theorem ReadLoop.turn_read {bev : Bufferevent} (h : bev.input ≠ []) (e : BufferEvent ε ω)
    (line : Line) : ∃ line' : Line, line'.TerminatedAt (bev.input.take maxLine).length ∧
      (ReadLoop.mk bev (some e) line).turn = .ok (some (bev.input.take maxLine).length,
        ⟨{ bev with input := bev.input.drop maxLine },
          some { e with evBuf := e.evBuf ++ bev.input.take maxLine }, line'⟩) := by
  obtain ⟨line₁, line₂, hread, hstore, hload, hnul⟩ := bev.read_terminated line
  refine ⟨line₂, hnul, ?_⟩
  simp only [ReadLoop.turn, hread, bind, Except.bind, if_pos (Bufferevent.read_length_pos h),
    hstore, hload, Fault.inBounds, Fault.deref]
  rfl

def linesOf (length : Nat) : Nat := (length + (maxLine - 1)) / maxLine

theorem linesOf_drop {bytes : List UInt8} (h : bytes ≠ []) :
    linesOf bytes.length = linesOf (bytes.drop maxLine).length + 1 := by
  have hlen := List.length_pos_iff.2 h
  rw [linesOf, linesOf, List.length_drop, maxLine]
  omega

theorem ReadLoop.turns_total (bev : Bufferevent) (e : BufferEvent ε ω) (line : Line) :
    ∃ ns line', Turns ns ⟨bev, some e, line⟩
        ⟨{ bev with input := [] }, some { e with evBuf := e.evBuf ++ bev.input }, line'⟩ ∧
      ns.length = linesOf bev.input.length ∧ (∀ n ∈ ns, 0 < n ∧ n ≤ maxLine) ∧
      (∀ n, line.TerminatedAt n → line'.TerminatedAt (ns.getLast?.getD n)) := by
  induction hn : bev.input.length using Nat.strong_induction_on generalizing bev e line with
  | _ len ih =>
    subst hn
    by_cases hempty : bev.input = []
    · have hsame : ({ bev with input := [] } : Bufferevent) = bev := by
        rw [← hempty]
      refine ⟨[], line, ?_, ?_, ?_, fun n hline => hline⟩
      · rw [hsame, hempty, List.append_nil]
        exact .stop (ReadLoop.turn_empty _ hempty)
      · rw [hempty]
        rfl
      · intro n hn
        cases hn
    · obtain ⟨line₁, hline₁, hturn⟩ := ReadLoop.turn_read hempty e line
      have hless : (bev.input.drop maxLine).length < bev.input.length := by
        have hpos := List.length_pos_iff.2 hempty
        rw [List.length_drop, maxLine]
        omega
      obtain ⟨ns, line₂, hrest, hcount, hbounds, hline₂⟩ :=
        ih _ hless { bev with input := bev.input.drop maxLine }
          { e with evBuf := e.evBuf ++ bev.input.take maxLine } line₁ rfl
      refine ⟨(bev.input.take maxLine).length :: ns, line₂, ?_, ?_, ?_, fun n _ => ?_⟩
      · rw [List.append_assoc, List.take_append_drop] at hrest
        exact .next hturn hrest
      · rw [List.length_cons, hcount, linesOf_drop hempty]
      · refine List.forall_mem_cons.2 ⟨⟨Bufferevent.read_length_pos hempty, ?_⟩, hbounds⟩
        exact List.length_take_le _ _
      · have hlast := hline₂ _ hline₁
        rw [List.getLast?_cons, Option.getD_some]
        exact hlast

/-- With its own context the loop takes as many turns as there are lines in the queue, each within
the line, and moves the whole queue to the end of the buffer of `evt`. The line is terminated where
the last turn ended it. -/
theorem ReadLoop.drains_queue (bev : Bufferevent) (e : BufferEvent ε ω) :
    ∃ ns line, Turns ns ⟨bev, some e, .zero⟩
        ⟨{ bev with input := [] }, some { e with evBuf := e.evBuf ++ bev.input }, line⟩ ∧
      ns.length = linesOf bev.input.length ∧ (∀ n ∈ ns, 0 < n ∧ n ≤ maxLine) ∧
      Line.TerminatedAt line (ns.getLast?.getD 0) ∧
      BufferEvent.drain ⟨bev, some e, .zero⟩ =
        .ok ⟨{ bev with input := [] }, some { e with evBuf := e.evBuf ++ bev.input }, line⟩ := by
  obtain ⟨ns, line, hturns, hcount, hbounds, hline⟩ := ReadLoop.turns_total bev e .zero
  exact ⟨ns, line, hturns, hcount, hbounds, hline 0 Line.zero_terminated, hturns.drain⟩

end Gortsp
