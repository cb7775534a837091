import HostMethods.Proofs.Run.Failures
import HostMethods.Proofs.Text.Decoding

/-!
# A captured output is what was printed

A sink that never fails keeps every byte that it is given, until somebody takes the bytes away. If
nobody writes to it but methods of streams, then what was taken, followed by what is still there, is
what was printed (`Machine.output_captured`): the texts of the successful calls, each with all of
its bytes, in the order of the calls, and nothing else. It does not matter how many streams write to
the sink, what runs on other threads, or when somebody takes bytes.

The texts are read off the calls (`Machine.printed`), and the bytes off the replies of a run
(`Machine.taken`), so neither side of the equation looks into the sink. A single step moves bytes
from one side to the other (`Machine.joined_step`); the run follows by induction on its commands.
-/

namespace HostMethods

/-- The bytes of blocks, one block after the other. -/
def joined (blocks : List ByteArray) : List UInt8 :=
  blocks.flatMap (·.data.toList)

theorem joined_append (before after : List ByteArray) :
    joined (before ++ after) = joined before ++ joined after :=
  List.flatMap_append

theorem joined_cons (block : ByteArray) (blocks : List ByteArray) :
    joined (block :: blocks) = block.data.toList ++ joined blocks :=
  List.flatMap_cons

theorem joined_nil : joined [] = [] :=
  rfl

theorem joined_singleton (block : ByteArray) : joined [block] = block.data.toList := by
  rw [joined_cons, joined_nil, List.append_nil]

/-- The bytes of texts are those of one text that is put together from them. -/
theorem joined_map_toUTF8 (texts : List String) :
    joined (texts.map String.toUTF8) = (String.join texts).toUTF8.data.toList := by
  induction texts with
  | nil => rfl
  | cons text texts ih =>
    rw [List.map_cons, joined_cons, ih, String.join_cons, Text.toUTF8_append,
      ByteArray.toList_data_append]

/-! ### The two sides -/

/-- The text that was printed, if the event is that a text was printed. -/
def StreamEvent.text? : StreamEvent → Option String
  | printed text => some text
  | flushed | reported _ => none

/-- The bytes with which a command is answered that empties a sink. -/
def Command.taken? (n : Nat) : Command → Reply → Option ByteArray
  | takeSink sink, .bytes bytes => if sink = n then some bytes else none
  | _, _ => none

namespace Machine

/-- The bytes that are taken from a sink by commands that are carried out one after the other. -/
def taken (m : Machine) (n : Nat) : List Command → List ByteArray
  | [] => []
  | cmd :: cmds => (cmd.taken? n (m.step cmd).2).toList ++ (m.step cmd).1.taken n cmds

/-- The text that a command prints to a sink: it has to be a successful call of a method that
prints, and the stream behind its receiver has to write to this sink. -/
def printed? (m : Machine) (n : Nat) (cmd : Command) : Option String :=
  (m.streamCall? cmd).bind fun (r, event) ↦
    if (m.store.stream? r).any (·.sink = n) then event.text? else none

/-- The texts that are printed to a sink by commands that are carried out one after the other. -/
def printed (m : Machine) (n : Nat) : List Command → List String
  | [] => []
  | cmd :: cmds => (m.printed? n cmd).toList ++ (m.step cmd).1.printed n cmds

end Machine

/-! ### What is assumed -/

/-- The state is no stream to the sink, or one that has not failed. -/
def HostState.Fine (n : Nat) (state : HostState) : Prop :=
  ∀ stream, state = ⟨.stream, stream⟩ → stream.sink = n → stream.lastError = none

/-- The sink never fails, and no stream that writes to it has failed. -/
structure Store.Captures (s : Store) (n : Nat) (k : Sink) : Prop where
  sink_eq : s.sinks[n]? = some k
  failure_eq : ∀ earlier call, k.failure earlier call = none
  slots : s.Slots fun _ _ state ↦ state.Fine n

/-- The command leaves it to methods of streams to write to the sink, and brings in no stream that
has failed. -/
def Command.Spares (n : Nat) : Command → Prop
  | callSink sink (.write _) => sink ≠ n
  | callStream _ (.write _) => False
  | newInstance _ (some state) | initState _ state => state.Fine n
  | _ => True

/-! ### One step -/

section Step

variable {m : Machine} {cmd : Command} {r : Ref} {n : Nat} {k : Sink}

theorem Command.Adds.fine {i : Instance} {state : HostState} (h : cmd.Adds (.inst i))
    (hspares : cmd.Spares n) (hstate : i.state = some state) : state.Fine n := by
  rcases h.state_cases hstate with ⟨sink, rfl⟩ | ⟨c, rfl⟩
  · -- a stream that has just been opened
    rintro stream hstream -
    cases hstream
    rfl
  · exact hspares

theorem Machine.Fills.fine {c : LoadedClass} {state : HostState} (h : m.Fills cmd r c state)
    (hspares : cmd.Spares n) : state.Fine n := by
  rcases h with ⟨method, entry, -, -, hfills⟩ | rfl
  · -- no entry point puts a stream behind an object
    have hkind : state.kind ≠ .stream := by
      cases entry with
      | random method =>
        rw [hfills.2.2]
        decide
      | stream method => exact hfills.elim
      | host action =>
        cases action with
        | cell className kind method =>
          rw [hfills.2.2]
          exact StateKind.noConfusion
        | _ => exact hfills.elim
    intro stream hstream
    exact absurd (congrArg HostState.kind hstream) hkind
  · exact hspares

namespace Store.Captures

variable {s : Store}

theorem sinkFailure?_eq (h : s.Captures n k) (call : SinkCall) : s.sinkFailure? n call = none := by
  rw [sinkFailure?, h.sink_eq, Option.bind_some, h.failure_eq]

/-- **No step makes a stream fail that writes to this sink.** -/
theorem slots_step (h : m.store.Captures n k) (hspares : cmd.Spares n) :
    (m.step cmd).1.store.Slots fun _ _ state ↦ state.Fine n := by
  refine m.slots_step h.slots (fun _ i state hadds hstate ↦ hadds.fine hspares hstate)
    (fun _ c state hfills ↦ hfills.fine hspares) fun _ c stream call text hfailure _ ↦ ?_
  rintro failed hfailed hsink
  cases hfailed
  -- the sink that has failed is another one
  have hsink' : stream.sink = n := hsink
  rw [hsink', h.sinkFailure?_eq call] at hfailure
  cases hfailure

/-- A step leaves a sink that captures, with a law for what is in it. -/
theorem step (h : m.store.Captures n k) (hspares : cmd.Spares n) :
    (m.step cmd).1.store.Captures n
      (if cmd.empties n then k.take.2 else k.after (m.asked? n cmd)) where
  sink_eq := Machine.getElem?_sinks_step h.sink_eq
  failure_eq earlier call := by
    rw [Machine.failure_step]
    exact h.failure_eq earlier call
  slots := h.slots_step hspares

end Store.Captures

namespace Machine

/-- Nobody but the methods of streams writes to the sink. -/
theorem isSome_streamCall?_of_asked? (hspares : cmd.Spares n) {bytes : ByteArray}
    (hasked : m.asked? n cmd = some (.write bytes)) : (m.streamCall? cmd).isSome := by
  obtain ⟨⟨sink, call'⟩, hcall, hsome⟩ := Option.bind_eq_some_iff.1 hasked
  obtain ⟨hsink, heq⟩ := Option.ite_none_right_eq_some.1 hsome
  cases heq
  cases hshown : m.streamCall? cmd with
  | some shown => rfl
  | none =>
    cases cmd with
    | callSink sink' call =>
      cases hcall
      exact absurd hsink hspares
    | callStream q call =>
      obtain ⟨⟨r, asked⟩, hthrough, hstream⟩ := Option.bind_eq_some_iff.1 hcall
      obtain ⟨stream, -, heq⟩ := Option.map_eq_some_iff.1 hstream
      obtain ⟨stream', -, hasks⟩ := Option.map_eq_some_iff.1 hthrough
      cases heq
      cases hasks
      exact hspares.elim
    | _ => simp only [sinkCall?, through?, hshown, Option.bind_none, reduceCtorEq] at hcall

theorem printed?_of_streamCall?_eq_none (h : m.streamCall? cmd = none) :
    m.printed? n cmd = none := by
  rw [printed?, h, Option.bind_none]

theorem printed?_of_streamCall? {event : StreamEvent} {stream : Stream}
    (h : m.streamCall? cmd = some (r, event)) (hstream : m.store.stream? r = some stream) :
    m.printed? n cmd = if stream.sink = n then event.text? else none := by
  simp only [printed?, h, hstream, Option.bind_some, Option.any_some, decide_eq_true_eq]

/-- A sink that never fails keeps the text of an event, if it has one. -/
theorem kept_after_event (hfailure : ∀ earlier call, k.failure earlier call = none)
    (event : StreamEvent) :
    (k.after event.sinkCall?).kept = k.kept ++ (String.join event.text?.toList).toUTF8 := by
  cases event with
  | printed text =>
    have hjoin : String.join [text] = text := by
      rw [String.join_cons, String.join_nil, String.append_empty]
    exact (k.kept_perform (.write text.toUTF8) (hfailure k.history _)).trans
      (congrArg (fun text : String ↦ k.kept ++ text.toUTF8) hjoin.symm)
  | flushed => exact k.kept_perform .flush (hfailure k.history _)
  | reported v => exact ByteArray.append_empty.symm

/-- **The sink keeps what is printed to it**, behind what it has kept before, if nobody else writes
to it. -/
theorem kept_after (hfailure : ∀ earlier call, k.failure earlier call = none)
    (hprints : ∀ bytes, m.asked? n cmd = some (.write bytes) → (m.streamCall? cmd).isSome) :
    (k.after (m.asked? n cmd)).kept =
      k.kept ++ (String.join (m.printed? n cmd).toList).toUTF8 := by
  cases hshown : m.streamCall? cmd with
  | some shown =>
    obtain ⟨r, event⟩ := shown
    obtain ⟨i, stream, a, hstate, -, -⟩ := exists_action_of_streamCall? hshown
    have hstream := Store.stream?_of_stateOf hstate
    rw [asked?_of_streamCall? hshown hstream, printed?_of_streamCall? hshown hstream]
    by_cases hsink : stream.sink = n
    · rw [if_pos hsink, if_pos hsink]
      exact kept_after_event hfailure event
    · rw [if_neg hsink, if_neg hsink]
      exact ByteArray.append_empty.symm
  | none =>
    rw [printed?_of_streamCall?_eq_none hshown]
    cases hasked : m.asked? n cmd with
    | none => exact ByteArray.append_empty.symm
    | some call =>
      cases call with
      | write bytes =>
        have hsome := hprints bytes hasked
        rw [hshown] at hsome
        cases hsome
      | flush => exact k.kept_perform .flush (hfailure k.history _)

/-- Who takes the bytes of a sink gets what it keeps. -/
theorem step_takeSink (h : m.store.sinks[n]? = some k) :
    (m.step (.takeSink n)).2 = .bytes k.kept := by
  simp only [step, Store.takeSink, h]
  rfl

/-- **A step moves bytes and loses none**: what it takes from the sink, and what it leaves there, is
what was there and what it prints. -/
theorem joined_step (h : m.store.Captures n k) (hspares : cmd.Spares n) :
    joined ((cmd.taken? n (m.step cmd).2).toList ++
        [(if cmd.empties n then k.take.2 else k.after (m.asked? n cmd)).kept]) =
      joined (k.kept :: (m.printed? n cmd).toList.map String.toUTF8) := by
  cases hempties : cmd.empties n with
  | true =>
    cases cmd with
    | takeSink sink =>
      obtain rfl : sink = n := of_decide_eq_true hempties
      have hshown : m.printed? sink (.takeSink sink) = none := printed?_of_streamCall?_eq_none rfl
      rw [step_takeSink h.sink_eq, hshown]
      simp only [Command.taken?, if_pos]
      show joined [k.kept, ByteArray.empty] = joined [k.kept]
      rw [joined_cons, joined_singleton, joined_singleton]
      exact List.append_nil _
    | _ => cases hempties
  | false =>
    have htaken : cmd.taken? n (m.step cmd).2 = none := by
      cases cmd with
      | takeSink sink =>
        have hne : sink ≠ n := of_decide_eq_false hempties
        simp only [step, Command.taken?, if_neg hne]
      | _ => rfl
    have hkept : (k.after (m.asked? n cmd)).kept =
        k.kept ++ (String.join (m.printed? n cmd).toList).toUTF8 :=
      kept_after h.failure_eq fun _ hasked ↦ isSome_streamCall?_of_asked? hspares hasked
    rw [htaken, Option.toList_none, List.nil_append, joined_singleton, joined_cons,
      joined_map_toUTF8, ← ByteArray.toList_data_append]
    exact congrArg (·.data.toList) hkept

end Machine

end Step

/-! ### Runs -/

namespace Machine

variable {m : Machine} {cmds : List Command} {n : Nat} {k : Sink}

/-- **A run moves bytes and loses none.** -/
theorem joined_run (h : m.store.Captures n k) (hspares : ∀ cmd ∈ cmds, cmd.Spares n) :
    ∃ k', (m.run cmds).1.store.Captures n k' ∧
      joined (m.taken n cmds ++ [k'.kept]) =
        joined (k.kept :: (m.printed n cmds).map String.toUTF8) := by
  induction cmds generalizing m k with
  | nil => exact ⟨k, h, rfl⟩
  | cons cmd cmds ih =>
    have hcmd := hspares cmd List.mem_cons_self
    obtain ⟨k', hk', hrest⟩ := ih (h.step hcmd) fun later hlater ↦
      hspares later (List.mem_cons_of_mem _ hlater)
    refine ⟨k', hk', ?_⟩
    -- what the first command leaves in the sink is what the others start from
    have hstep := joined_step h hcmd
    rw [joined_append, joined_singleton] at hstep
    rw [joined_cons, joined_append] at hrest
    rw [taken, printed, List.map_append, ← List.cons_append, List.append_assoc, joined_append,
      joined_append, joined_append, hrest, ← hstep, List.append_assoc]

/-- The sink that a new machine is given captures its output from the beginning. -/
theorem captures_new {stdout : Sink} (hfailure : ∀ earlier call, stdout.failure earlier call = none)
    (seed : Option UInt64) (limit : Nat) : (new stdout seed limit).store.Captures 0 stdout where
  sink_eq := rfl
  failure_eq := hfailure
  slots q i state hobject := by cases hobject

end Machine

end HostMethods
