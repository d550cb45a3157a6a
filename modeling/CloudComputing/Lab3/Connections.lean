import CloudComputing.Lab3.Threads

/-!
# One exchange over a connection

What can be on its way in a connection between the start of an exchange and
its end, and what each step of the participant and of the network does to it.
-/

namespace CloudComputing
namespace Lab3

open CloudComputing.Lab3.Parser Network

namespace Line

/-- Nothing is on its way. -/
structure Quiet (line : Line) : Prop where
  up : line.up = []
  tickets : line.tickets = []
  down : line.down = []

/-- What is on its way during one exchange: nothing any more, the request, or
its answer. -/
inductive Carries (line : Line) (ticket : Ticket) (smsg : Bytes) : Prop
  | lost
      (quiet : line.Quiet)
  | asked
      (up : line.up = wire (pack smsg))
      (tickets : line.tickets = [ticket])
      (down : line.down = [])
  | answered
      (up : line.up = [])
      (tickets : line.tickets = [])
      (execution : Execution)
      (member : execution ∈ line.handled)
      (own : execution.ticket = ticket)
      (message : execution.message = smsg)
      (down : line.down = wire (pack execution.reply))

theorem recv_nil (reads : List Nat) : recv reads [] = none := by
  rfl

theorem recvReply_nil (reads : List Nat) : recvReply reads [] = none := by
  rfl

/-- A change of a connection by the participant or by the network. -/
structure Keeps (line line' : Line) : Prop where
  handled : ∀ execution ∈ line.handled, execution ∈ line'.handled
  quiet : line.Quiet → line'.Quiet
  carries : ∀ ticket smsg, line.Carries ticket smsg →
    line'.Carries ticket smsg

theorem Keeps.crash (line : Line) : line.Keeps line.crash where
  handled := fun _ member => member
  quiet := fun quiet => ⟨rfl, rfl, quiet.down⟩
  carries := by
    intro ticket smsg carries
    cases carries with
    | lost quiet => exact .lost ⟨rfl, rfl, quiet.down⟩
    | asked up tickets down => exact .lost ⟨rfl, rfl, down⟩
    | answered up tickets execution member own message down =>
        exact .answered rfl rfl execution member own message down

theorem Keeps.hangUp (line : Line) : line.Keeps line.hangUp where
  handled := fun _ member => member
  quiet := fun quiet => ⟨rfl, rfl, quiet.down⟩
  carries := by
    intro ticket smsg carries
    cases carries with
    | lost quiet => exact .lost ⟨rfl, rfl, quiet.down⟩
    | asked up tickets down => exact .lost ⟨rfl, rfl, down⟩
    | answered up tickets execution member own message down =>
        exact .answered rfl rfl execution member own message down

variable {line line' : Line}

/-- The participant handles the one message that can be there. -/
theorem Keeps.serve
    {reads : List Nat}
    (taken : line.serve reads = some line') :
    line.Keeps line' := by
  unfold Line.serve at taken
  split at taken
  · rename_i content reads' rest ticket tickets received isTickets
    split at taken
    · cases taken
      exact .crash line
    · rename_i reply next computed
      cases taken
      refine ⟨fun execution member => List.mem_cons_of_mem _ member, ?_, ?_⟩
      · intro quiet
        rw [quiet.up, recv_nil] at received
        cases received
      · intro ticket' smsg carries
        cases carries with
        | lost quiet =>
            rw [quiet.up, recv_nil] at received
            cases received
        | asked up own down =>
            rw [isTickets] at own
            cases own
            by_cases sendable : Sendable smsg
            · obtain ⟨reads'', exactly⟩ := recv_wire_of_sendable reads sendable
              rw [up, exactly] at received
              cases received
              refine .answered rfl rfl _ (List.mem_cons_self ..) rfl rfl ?_
              rw [down, List.nil_append]
            · rw [up, recv_wire_of_not_sendable reads sendable] at received
              cases received
        | answered up own execution member isOwn message down =>
            rw [up, recv_nil] at received
            cases received
  · cases taken

/-- The participant does not touch the coordinator's socket. -/
theorem serve_same
    {reads : List Nat}
    (taken : line.serve reads = some line') :
    line'.link = line.link ∧ (line'.old = line.old ∨ line'.old = none) := by
  unfold Line.serve at taken
  split at taken
  · split at taken
    · cases taken
      exact ⟨rfl, .inr rfl⟩
    · cases taken
      exact ⟨rfl, .inl rfl⟩
  · cases taken

/-- Messages from an old connection do not touch the new one. -/
theorem Keeps.drain
    {reads : List Nat}
    (taken : line.drain reads = some line') :
    line.Keeps line' := by
  have frame : ∀ (line' : Line), line'.up = line.up →
      line'.tickets = line.tickets → line'.down = line.down →
      (∀ execution ∈ line.handled, execution ∈ line'.handled) →
      line.Keeps line' := by
    intro line' up tickets down handled
    refine ⟨handled, fun quiet => ⟨up.trans quiet.up,
      tickets.trans quiet.tickets, down.trans quiet.down⟩, ?_⟩
    intro ticket smsg carries
    cases carries with
    | lost quiet =>
        exact .lost ⟨up.trans quiet.up, tickets.trans quiet.tickets,
          down.trans quiet.down⟩
    | asked isUp own isDown =>
        exact .asked (up.trans isUp) (tickets.trans own) (down.trans isDown)
    | answered isUp own execution member isOwn message isDown =>
        exact .answered (up.trans isUp) (tickets.trans own) execution
          (handled execution member) isOwn message (down.trans isDown)
  unfold Line.drain at taken
  split at taken
  · cases taken
  · split at taken
    · split at taken
      · cases taken
        exact .crash line
      · cases taken
        exact frame _ rfl rfl rfl fun execution member =>
          List.mem_cons_of_mem _ member
    · cases taken
      exact frame _ rfl rfl rfl fun execution member => member

/-- In a new connection there is nothing on its way. -/
theorem Keeps.reconnect
    (taken : line.reconnect = some line') :
    line.Keeps line' := by
  unfold Line.reconnect at taken
  split at taken
  · cases taken
    exact ⟨fun _ member => member, fun _ => ⟨rfl, rfl, rfl⟩,
      fun _ _ _ => .lost ⟨rfl, rfl, rfl⟩⟩
  · cases taken

/-- A request sent over an empty connection. -/
theorem Quiet.send
    (quiet : line.Quiet)
    (ticket : Ticket)
    (smsg : Bytes) :
    (line.send ticket smsg).Carries ticket smsg := by
  unfold Line.send
  split
  · refine .asked ?_ ?_ quiet.down
    · rw [quiet.up]
      rfl
    · rw [quiet.tickets]
      rfl
  · exact .lost quiet

theorem Quiet.close (line : Line) (arrives : Nat) :
    (line.close arrives).Quiet :=
  ⟨rfl, rfl, rfl⟩

/-- What a worker receives during an exchange is the answer to its request,
and nothing is left behind. -/
theorem Carries.receive
    {ticket : Ticket}
    {smsg rmsg rest : Bytes}
    {reads reads' : List Nat}
    (carries : line.Carries ticket smsg)
    (received : recvReply reads line.down = some (rmsg, reads', rest)) :
    (∃ execution ∈ line.handled, execution.ticket = ticket ∧
      execution.message = smsg ∧ execution.reply = rmsg) ∧
      ({ line with down := rest } : Line).Quiet := by
  cases carries with
  | lost quiet =>
      rw [quiet.down, recvReply_nil] at received
      cases received
  | asked up own down =>
      rw [down, recvReply_nil] at received
      cases received
  | answered up own execution member isOwn message down =>
      by_cases sendable : Sendable execution.reply
      · obtain ⟨reads'', exactly⟩ :=
          recvReply_wire_of_sendable reads sendable
        rw [down, exactly] at received
        cases received
        exact ⟨⟨execution, member, isOwn, message, rfl⟩, up, own, rfl⟩
      · rw [down, recvReply_wire_of_not_sendable reads sendable] at received
        cases received

end Line

end Lab3
end CloudComputing
