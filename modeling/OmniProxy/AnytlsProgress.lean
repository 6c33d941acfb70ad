import Mathlib.Algebra.GroupWithZero.Nat
import OmniProxy.AnytlsSession

/-!
# Progress of an AnyTLS session

Every step that has an effect makes a session lighter. An octet weighs most before it is
decoded, less in a queue and nothing when it was read; the stages of a task and the end
of a stream weigh a little. So every run comes to rest, whatever the order of its steps.
-/

namespace OmniProxy.AnytlsProgress

open AnytlsFrames AnytlsSession AnytlsStreams ByteStrings GuardedRuns ProxyTargets

section Weights

def messageWeight : StreamMsg → Nat
  | .data data => 2 + 3 * data.length
  | .eof => 2

def leftoverWeight : Option Bytes → Nat
  | none => 0
  | some data => 1 + 3 * data.length

def endWeight : Bool → Nat
  | true => 0
  | false => 1

/-- A stream without leftover has nothing to hand out. -/
theorem leftover_weight_none : leftoverWeight none = 0 := rfl

/-- Leftover octets weigh more than the reads that hand them out. -/
theorem leftover_weight_some (data : Bytes) :
    leftoverWeight (some data) = 1 + 3 * data.length := rfl

/-- The messages in the queue, the data left over and the end that is to be seen. -/
def streamWeight (stream : AnytlsStream) : Nat :=
  (stream.rx.map messageWeight).sum + leftoverWeight stream.leftover + endWeight stream.eof

def pushedBackWeight : Option Bytes → Nat
  | none => 0
  | some octets => 1 + octets.length

def stageWeight : Stage → Nat
  | .addressing buf => 4 + buf.length
  | .routed pushedBack _ ended => pushedBackWeight pushedBack + endWeight ended
  | .returned => 0

def taskWeight (task : StreamTask) : Nat := streamWeight task.stream + stageWeight task.stage

/-- The reads to come with their octets, the octets not decoded, the tasks and the return
of the loop. -/
def sessionWeight (session : Session) : Nat :=
  session.incoming.length + 8 * (joined session.incoming).length + 8 * session.buf.length +
    (session.tasks.map taskWeight).sum + if session.result.isSome then 0 else 1

end Weights

section Streams

/-- Data is handed out in part or not at all. What is handed out loses weight. -/
theorem hand_out_lighter (remaining : Nat) (data : Bytes) :
    ((handOut remaining data).2 = some data ∧ (handOut remaining data).1 = []) ∨
      leftoverWeight (handOut remaining data).2 + 2 * (handOut remaining data).1.length <
        1 + 3 * data.length := by
  simp only [handOut]
  split
  · by_cases room : remaining = 0
    · simp [room]
    · right
      simp only [leftoverWeight, List.length_take, List.length_drop]
      omega
  · right
    simp only [leftoverWeight, List.length_take]
    omega

/-- A read leaves the stream as it was and returns nothing, or makes it lighter by more
than what it returns. -/
theorem poll_read_lighter (stream : AnytlsStream) (closed : Bool) (remaining : Nat) :
    ((stream.pollRead closed remaining).2 = stream ∧
        (stream.pollRead closed remaining).1.getD [] = []) ∨
      streamWeight (stream.pollRead closed remaining).2 +
        2 * ((stream.pollRead closed remaining).1.getD []).length < streamWeight stream := by
  cases left : stream.leftover with
  | some data =>
    rw [poll_read_leftover left, Option.getD_some]
    obtain ⟨unmoved, out⟩ | lighter := hand_out_lighter remaining data
    · left
      rw [unmoved, out, ← left]
      exact ⟨rfl, rfl⟩
    · right
      simp only [streamWeight, left, leftover_weight_some]
      omega
  | none =>
    cases last : stream.eof with
    | true =>
      rw [poll_read_ended left last]
      exact .inl ⟨rfl, rfl⟩
    | false =>
      cases queue : stream.rx with
      | nil =>
        cases closed with
        | true =>
          right
          rw [poll_read_closed left last queue]
          simp only [streamWeight, last, endWeight, Option.getD_some, List.length_nil]
          omega
        | false =>
          rw [poll_read_pending left last queue]
          exact .inl ⟨rfl, rfl⟩
      | cons msg rx =>
        right
        cases msg with
        | eof =>
          rw [poll_read_eof left last queue]
          simp only [streamWeight, queue, last, List.map_cons, List.sum_cons, messageWeight,
            endWeight, Option.getD_some, List.length_nil]
          omega
        | data data =>
          by_cases empty : data = []
          · subst empty
            rw [poll_read_empty left last queue]
            simp only [streamWeight, queue, last, List.map_cons, List.sum_cons, messageWeight,
              endWeight, Option.getD_some, List.length_nil]
            omega
          · rw [poll_read_data left last queue empty, Option.getD_some]
            have lighter : leftoverWeight (handOut remaining data).2 +
                2 * (handOut remaining data).1.length < 2 + 3 * data.length := by
              obtain ⟨unmoved, out⟩ | lighter := hand_out_lighter remaining data
              · rw [unmoved, out, leftover_weight_some, List.length_nil]
                omega
              · omega
            simp only [streamWeight, queue, last, left, List.map_cons, List.sum_cons,
              messageWeight, leftover_weight_none]
            omega

/-- The same for a read with a given result. -/
theorem polled_lighter {stream after : AnytlsStream} {closed : Bool} {remaining : Nat}
    {out : Option Bytes} (polled : stream.pollRead closed remaining = (out, after)) :
    (after = stream ∧ out.getD [] = []) ∨
      streamWeight after + 2 * (out.getD []).length < streamWeight stream := by
  have lighter := poll_read_lighter stream closed remaining
  rw [polled] at lighter
  exact lighter

end Streams

section Tasks

/-- A round leaves the task as it was, or makes it lighter. -/
theorem round_lighter (task : StreamTask) (closed : Bool) :
    ((task.round closed).2 = task ∧ (task.round closed).1 = none) ∨
      taskWeight (task.round closed).2 < taskWeight task := by
  obtain ⟨stream, stage⟩ := task
  cases stage with
  | returned => exact .inl ⟨rfl, rfl⟩
  | routed pushedBack consumed ended => exact .inl ⟨rfl, rfl⟩
  | addressing buf =>
    cases decoded : Socks5Addr.decode buf with
    | ok result =>
      right
      simp only [StreamTask.round, decoded, taskWeight, stageWeight, pushedBackWeight, endWeight,
        List.length_drop]
      omega
    | error error =>
      by_cases long : 4096 < buf.length
      · right
        simp only [StreamTask.round, decoded, if_pos long, taskWeight, stageWeight]
        omega
      · cases polled : stream.pollRead closed 512 with
        | mk out after =>
          have lighter := polled_lighter polled
          cases out with
          | none =>
            simp only [StreamTask.round, decoded, if_neg long, polled]
            obtain ⟨rfl, -⟩ | lighter := lighter
            · exact .inl ⟨rfl, trivial⟩
            · right
              simp only [taskWeight]
              omega
          | some out =>
            right
            simp only [StreamTask.round, decoded, if_neg long, polled]
            have bound : streamWeight after + 2 * out.length ≤ streamWeight stream := by
              obtain ⟨rfl, nothing⟩ | lighter := lighter
              · obtain rfl : out = [] := nothing
                exact Nat.le_refl _
              · exact Nat.le_of_lt lighter
            split
            · simp only [taskWeight, stageWeight]
              omega
            · rename_i something
              have positive : 0 < out.length := List.length_pos_of_ne_nil (by simpa using something)
              simp only [taskWeight, stageWeight, List.length_append]
              omega

/-- Seeing the end for the first time makes a reader lighter. -/
theorem end_lighter (ended seen : Bool) :
    (ended || seen) = ended ∨ endWeight (ended || seen) < endWeight ended := by
  cases ended <;> cases seen <;> decide

/-- Seeing the end never makes a reader heavier. -/
theorem end_not_heavier (ended seen : Bool) : endWeight (ended || seen) ≤ endWeight ended := by
  cases ended <;> cases seen <;> decide

/-- A read leaves the task as it was, or makes it lighter. -/
theorem read_lighter (task : StreamTask) (closed : Bool) (size : Nat) :
    task.read closed size = task ∨ taskWeight (task.read closed size) < taskWeight task := by
  obtain ⟨stream, stage⟩ := task
  cases stage with
  | returned => exact .inl rfl
  | addressing buf => exact .inl rfl
  | routed pushedBack consumed ended =>
    by_cases returned : pushedBack.getD [] = []
    · have pushed : pushedBack = none ∨ pushedBackWeight none < pushedBackWeight pushedBack := by
        cases pushedBack with
        | none => exact .inl rfl
        | some octets => exact .inr (by simp only [pushedBackWeight]; omega)
      have pushedBound : pushedBackWeight none ≤ pushedBackWeight pushedBack := Nat.zero_le _
      simp only [StreamTask.read, prefixed_poll_read _ _ _ _ returned]
      cases polled : stream.pollRead closed size with
      | mk out after =>
        have lighter := polled_lighter polled
        cases out with
        | none =>
          simp only [taskWeight, stageWeight]
          obtain ⟨rfl, -⟩ | lighter := lighter
          · obtain rfl | pushed := pushed
            · exact .inl rfl
            · right
              omega
          · right
            omega
        | some out =>
          have seen := end_lighter ended (decide (0 < size) && out.isEmpty)
          have seenBound := end_not_heavier ended (decide (0 < size) && out.isEmpty)
          simp only [taskWeight, stageWeight]
          obtain ⟨rfl, nothing⟩ | lighter := lighter
          · obtain rfl : out = [] := nothing
            obtain rfl | pushed := pushed
            · obtain same | seen := seen
              · left
                rw [same, List.append_nil]
              · right
                omega
            · right
              omega
          · right
            omega
    · obtain ⟨octet, octets, rfl⟩ : ∃ octet octets, pushedBack = some (octet :: octets) := by
        rcases pushedBack with _ | _ | ⟨octet, octets⟩
        · exact absurd rfl returned
        · exact absurd rfl returned
        · exact ⟨octet, octets, rfl⟩
      simp only [StreamTask.read, PrefixedStream.pollRead]
      by_cases room : size = 0
      · left
        simp [room]
      · right
        have seen := end_not_heavier ended (decide (0 < size) &&
          ((octet :: octets).take (min size (octet :: octets).length)).isEmpty)
        simp only [taskWeight, stageWeight, pushedBackWeight, List.length_drop] at seen ⊢
        simp only [List.length_cons] at seen ⊢
        omega

end Tasks

section Sessions

/-- The weight of the tasks when one of them is replaced. -/
theorem task_weights_set (tasks : List StreamTask) (index : Nat) (task after : StreamTask)
    (there : tasks[index]? = some task) :
    ((tasks.set index after).map taskWeight).sum + taskWeight task =
      (tasks.map taskWeight).sum + taskWeight after := by
  induction tasks generalizing index with
  | nil => simp at there
  | cons first tasks inductionHypothesis =>
    cases index with
    | zero =>
      obtain rfl : first = task := Option.some.inj there
      simp only [List.set_cons_zero, List.map_cons, List.sum_cons]
      omega
    | succ index =>
      have rest := inductionHypothesis index there
      simp only [List.set_cons_succ, List.map_cons, List.sum_cons]
      omega

/-- A message makes one task heavier by its own weight at most. -/
theorem task_weights_send (tasks : List StreamTask) (index : Nat) (msg : StreamMsg) :
    ((tasks.modify index (·.send msg)).map taskWeight).sum ≤
      (tasks.map taskWeight).sum + messageWeight msg := by
  have sent (task : StreamTask) :
      taskWeight (task.send msg) ≤ taskWeight task + messageWeight msg := by
    unfold StreamTask.send
    split
    · omega
    · simp only [taskWeight, streamWeight, List.map_append, List.sum_append, List.map_singleton,
        List.sum_singleton]
      omega
  induction tasks generalizing index with
  | nil => simp
  | cons first tasks inductionHypothesis =>
    cases index with
    | zero =>
      have heavier := sent first
      simp only [List.modify_zero_cons, List.map_cons, List.sum_cons]
      omega
    | succ index =>
      have heavier := inductionHypothesis index
      simp only [List.modify_succ_cons, List.map_cons, List.sum_cons]
      omega

/-- Sending a message to a stream adds at most the weight of the message. -/
theorem send_to_weight (session : Session) (sid : UInt32) (msg : StreamMsg) :
    sessionWeight (session.sendTo sid msg) ≤ sessionWeight session + messageWeight msg := by
  unfold Session.sendTo
  split
  · rename_i index registered
    have heavier := task_weights_send session.tasks index msg
    simp only [sessionWeight]
    omega
  · omega

/-- A frame makes a session heavier by less than its own octets. -/
theorem handle_weight (session : Session) (isServer : Bool) (frame : Frame) :
    sessionWeight (session.handle isServer frame) ≤
      sessionWeight session + 5 + 3 * frame.data.length := by
  have failed (kind : Connections.ErrorKind) (message : String) :
      sessionWeight (session.fail kind message) ≤ sessionWeight session := by
    simp only [sessionWeight, Session.fail, Option.isSome_some, if_true]
    omega
  unfold Session.handle
  split
  · omega
  split
  · exact Nat.le_trans (Nat.le_refl (sessionWeight session)) (by omega)
  split
  · split
    · exact Nat.le_trans (failed _ _) (by omega)
    · have opened : taskWeight ⟨.new frame.sid, .addressing []⟩ = 5 := rfl
      simp only [sessionWeight, List.map_append, List.sum_append, List.map_singleton,
        List.sum_singleton, opened]
      omega
  split
  · have heavier := send_to_weight session frame.sid
      (if frame.data.isEmpty then .eof else .data frame.data)
    have message : messageWeight (if frame.data.isEmpty then .eof else .data frame.data) ≤
        2 + 3 * frame.data.length := by
      split
      · simp only [messageWeight]
        omega
      · exact Nat.le_refl _
    omega
  split
  · have heavier : sessionWeight (session.sendTo frame.sid .eof) ≤ sessionWeight session + 2 :=
      send_to_weight session frame.sid .eof
    exact Nat.le_trans heavier (by omega)
  split
  · exact Nat.le_trans (failed _ _) (by omega)
  · omega

/-- A round of the loop leaves the session as it was, or makes it lighter. -/
theorem read_loop_lighter (session : Session) :
    session.readLoop = session ∨ sessionWeight session.readLoop < sessionWeight session := by
  unfold Session.readLoop
  split
  · exact .inl rfl
  · cases taken : tryDecode session.buf with
    | frame frame consumed =>
      right
      obtain ⟨size, there⟩ := try_decode_size taken
      have heavier := handle_weight { session with buf := session.buf.drop consumed } true frame
      simp only [sessionWeight, List.length_drop, headerSize] at heavier size ⊢
      omega
    | needMore =>
      cases reads : session.incoming with
      | nil => exact .inl rfl
      | cons octets incoming =>
        right
        have octetsIn : (joined (octets :: incoming)).length =
            octets.val.length + (joined incoming).length := by
          rw [joined, joined, List.map_cons, List.flatten_cons, List.length_append]
        simp only [sessionWeight, reads, octetsIn, List.length_append, List.length_cons]
        omega

/-- The end of the connection leaves the session as it was, or makes it lighter. -/
theorem close_lighter (session : Session) :
    session.close = session ∨ sessionWeight session.close < sessionWeight session := by
  unfold Session.close
  split
  · exact .inl rfl
  · rename_i running
    have lighter (result : Except Connections.IoError Unit) :
        sessionWeight { session with result := some result } < sessionWeight session := by
      simp only [sessionWeight, Option.isSome_some, if_true, if_neg running]
      omega
    split
    · split
      · exact .inr (lighter _)
      · exact .inr (lighter _)
    · exact .inl rfl

/-- Putting the same task back changes nothing. -/
theorem set_unchanged {tasks : List StreamTask} {index : Nat} {task : StreamTask}
    (there : tasks[index]? = some task) : tasks.set index task = tasks := by
  obtain ⟨inside, rfl⟩ := List.getElem?_eq_some_iff.mp there
  exact List.set_getElem_self inside

/-- Every step that has an effect makes the session lighter. -/
theorem step_lighter (session : Session) (event : Event) :
    step session event = session ∨ sessionWeight (step session event) < sessionWeight session := by
  cases event with
  | loop => exact read_loop_lighter session
  | close => exact close_lighter session
  | task index =>
    cases there : session.tasks[index]? with
    | none => exact .inl (step_task_none there)
    | some task =>
      rw [step_task_some there]
      obtain ⟨same, silent⟩ | lighter := round_lighter task (session.closed index task)
      · left
        rw [same, silent, set_unchanged there, Option.toList_none, List.map_nil, List.append_nil]
      · right
        have weights := task_weights_set session.tasks index task
          (task.round (session.closed index task)).2 there
        simp only [sessionWeight]
        omega
  | read index size =>
    cases there : session.tasks[index]? with
    | none => exact .inl (step_read_none there size)
    | some task =>
      rw [step_read_some there]
      obtain same | lighter := read_lighter task (session.closed index task) size
      · left
        rw [same, set_unchanged there]
      · right
        have weights := task_weights_set session.tasks index task
          (task.read (session.closed index task) size) there
        simp only [sessionWeight]
        omega

end Sessions

end OmniProxy.AnytlsProgress
