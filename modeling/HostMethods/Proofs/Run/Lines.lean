import HostMethods.Proofs.Run.Output
import HostMethods.Proofs.Run.Printing
import HostMethods.Proofs.Text.Lines

/-!
# Lines of several threads

Threads take turns at will, one command at a time, and print lines through streams that share one
sink (`LineCall`). A line is one write, so no line is ever cut or mixed with another one: the output
falls apart into the lines that were printed, and those of any thread are in the order of its calls
(`Machine.lines_intact`).

A thread that is interrupted has its arguments on its own stack, where no other thread finds them.
What is left to do for a thread is therefore known from its stack and its commands alone (`Prints`),
and a turn of one thread leaves it to all others as it was (`Machine.Ready.turn`).
-/

namespace HostMethods

/-! ### Schedules -/

section Schedules

variable {α : Type} {t t' : Nat} {a : α} {schedule : List (Nat × α)}

/-- What one thread does in a schedule of all threads. -/
def ofThread (t : Nat) (schedule : List (Nat × α)) : List α :=
  schedule.filterMap fun (t', a) ↦ if t' = t then some a else none

theorem ofThread_cons_self : ofThread t ((t, a) :: schedule) = a :: ofThread t schedule :=
  List.filterMap_cons_some (if_pos rfl)

theorem ofThread_cons_of_ne (h : t' ≠ t) : ofThread t ((t', a) :: schedule) = ofThread t schedule :=
  List.filterMap_cons_none (if_neg h)

theorem ofThread_append (before after : List (Nat × α)) :
    ofThread t (before ++ after) = ofThread t before ++ ofThread t after :=
  List.filterMap_append

/-- What one thread does is nothing for another one. -/
theorem ofThread_map (t t' : Nat) (as : List α) :
    ofThread t' (as.map (t, ·)) = if t' = t then as else [] := by
  induction as with
  | nil => exact (ite_self []).symm
  | cons a as ih =>
    rw [List.map_cons]
    split
    next heq =>
      subst heq
      rw [ofThread_cons_self, ih, if_pos rfl]
    next hne => rw [ofThread_cons_of_ne (Ne.symm hne), ih, if_neg hne]

theorem mem_ofThread (h : (t, a) ∈ schedule) : a ∈ ofThread t schedule :=
  List.mem_filterMap.2 ⟨(t, a), h, if_pos rfl⟩

end Schedules

/-- The commands of a schedule: a thread is selected for each of its turns. -/
def turns (schedule : List (Nat × Command)) : List Command :=
  schedule.flatMap fun (t, cmd) ↦ [.select t, cmd]

/-! ### Calls that print a line -/

/-- A call that prints a line. -/
inductive LineCall
  /-- The line is the text of a string, or of null. -/
  | text (stream : Ref) (arg : Option Ref)
  /-- The line is a number. -/
  | number (stream : Ref) (i : Int32)
  /-- The line is empty. -/
  | blank (stream : Ref)

namespace LineCall

/-- The stream. -/
def stream : LineCall → Ref
  | text r _ | number r _ | blank r => r

/-- The method. -/
def method : LineCall → StreamMethod
  | text _ _ => .printlnString
  | number _ _ => .printlnInt
  | blank _ => .println

/-- The arguments. -/
def args : (c : LineCall) → Args c.method.arguments
  | text _ arg => .cons arg .nil
  | number _ i => .cons i .nil
  | blank _ => .nil

/-- The line, without the newline that ends it. -/
def line (s : Store) : LineCall → String
  | text _ none => "null"
  | text _ (some q) => (s.object q).text?.getD ""
  | number _ i => toString i.toInt
  | blank _ => ""

/-- What is pushed for the call. -/
def values (c : LineCall) : List Value :=
  .ref c.stream :: c.args.values

theorem length_values_le (c : LineCall) : c.values.length ≤ 2 := by
  match c with
  | text _ _ | number _ _ => exact Nat.le_refl 2
  | blank _ => exact Nat.le_succ 1

/-- What a thread does for the call. `how` calls a method. -/
def commands (how : StreamMethod → Command) (c : LineCall) : List Command :=
  c.values.map (.push · 1) ++ [how c.method]

/-- The stream writes to the sink, and what is given for a string is one, on a single line. -/
structure Fits (s : Store) (n : Nat) (c : LineCall) : Prop where
  stateOf_stream : ∃ i stream,
    s.stateOf c.stream ClassName.printStream .stream = .ok (i, stream) ∧ stream.sink = n
  object_arg : ∀ r q, c = text r (some q) → ∃ text, s.object q = .text text ∧ '\n' ∉ text.toList

variable {s s' : Store} {n : Nat} {c : LineCall}

/-- Only objects matter to a line. -/
theorem line_congr (h : ∀ q, s'.object q = s.object q) : c.line s' = c.line s := by
  match c with
  | text _ (some q) =>
    show (s'.object q).text?.getD "" = (s.object q).text?.getD ""
    rw [h]
  | text _ none | number _ _ | blank _ => rfl

theorem Fits.congr (h : c.Fits s n) (hobject : ∀ q, s'.object q = s.object q) : c.Fits s' n where
  stateOf_stream := by
    obtain ⟨i, stream, hstate, hsink⟩ := h.stateOf_stream
    refine ⟨i, stream, ?_, hsink⟩
    rwa [Store.stateOf_eq_ok_iff, hobject, ← Store.stateOf_eq_ok_iff]
  object_arg r q hc := by
    rw [hobject]
    exact h.object_arg r q hc

/-- A line has no newline in it. -/
theorem Fits.newline_not_mem_line (h : c.Fits s n) : '\n' ∉ (c.line s).toList := by
  match c with
  | text _ none => exact (by decide : '\n' ∉ "null".toList)
  | text r (some q) =>
    obtain ⟨text, htext, hline⟩ := h.object_arg r q rfl
    rwa [line, htext]
  | number _ i => exact Text.newline_not_mem_toString i.toInt
  | blank _ => exact List.not_mem_nil

theorem readFrom_args (c : LineCall) : c.args.ReadFrom c.args.values := by
  refine Args.readFrom_values ?_ c.args
  match c with
  | text _ _ => exact (by decide : ArgKind.char ∉ [ArgKind.nullable])
  | number _ _ => exact (by decide : ArgKind.char ∉ [ArgKind.int])
  | blank _ => exact List.not_mem_nil

/-- The call prints its line, with a newline, in one write. -/
theorem Fits.action_eq (h : c.Fits s n) :
    StreamMethod.action s c.method c.args = .ok (.print (c.line s ++ "\n")) := by
  match c with
  | text _ none | number _ _ => rfl
  | blank _ => rfl
  | text r (some q) =>
    obtain ⟨text, htext, -⟩ := h.object_arg r q rfl
    show (s.stringAt q).map _ = .ok (StreamAction.print ((s.object q).text?.getD "" ++ "\n"))
    rw [Store.stringAt, htext]
    rfl

/-- The call takes its slots, and its line goes to the stream. -/
theorem Fits.call_eq {i : Instance} {stream : Stream} {stack : OperandStack} {below : List Value}
    (h : c.Fits s n) (hstate : s.stateOf c.stream ClassName.printStream .stream = .ok (i, stream))
    (hslots : stack.slots = c.values.reverse ++ below) :
    c.method.declared.call ⟨stack, s⟩ =
      (.ok (), ⟨⟨below, stack.room + c.values.length⟩,
        s.callStream c.stream i stream (.write (c.line s ++ "\n").toUTF8)⟩) := by
  rw [values, List.reverse_cons, List.append_assoc, List.singleton_append] at hslots
  exact StreamMethod.call_eq_of_print c.readFrom_args h.action_eq hstate hslots

end LineCall

/-! ### What is left to do for a thread -/

/-- With its stack, the thread makes these calls by these commands: every push finds room, and every
call finds its slots. -/
inductive Prints (how : StreamMethod → Command) :
    OperandStack → List Command → List LineCall → Prop
  | done (s : OperandStack) : Prints how s [] []
  | push {s : OperandStack} {v : Value} {cmds : List Command} {calls : List LineCall}
      (hroom : 0 < s.room) (h : Prints how ⟨v :: s.slots, s.room - 1⟩ cmds calls) :
      Prints how s (.push v 1 :: cmds) calls
  | call {s : OperandStack} {c : LineCall} {below : List Value} {cmds : List Command}
      {calls : List LineCall} (hslots : s.slots = c.values.reverse ++ below)
      (h : Prints how ⟨below, s.room + c.values.length⟩ cmds calls) :
      Prints how s (how c.method :: cmds) (c :: calls)

namespace Prints

variable {how : StreamMethod → Command} {s : OperandStack} {cmds : List Command}
  {calls : List LineCall}

theorem pushes {vs : List Value} (hroom : vs.length ≤ s.room)
    (h : Prints how ⟨vs.reverse ++ s.slots, s.room - vs.length⟩ cmds calls) :
    Prints how s (vs.map (.push · 1) ++ cmds) calls := by
  induction vs generalizing s with
  | nil => exact h
  | cons v vs ih =>
    rw [List.length_cons] at hroom h
    rw [List.reverse_cons, List.append_assoc, Nat.sub_add_eq, Nat.sub_right_comm] at h
    exact .push (by omega) (ih (show vs.length ≤ s.room - 1 by omega) h)

/-- **Room for two values is enough for any program.** -/
theorem of_program (hroom : 2 ≤ s.room) (program : List LineCall) :
    Prints how s (program.flatMap (·.commands how)) program := by
  induction program with
  | nil => exact .done s
  | cons c program ih =>
    have hlength := c.length_values_le
    rw [List.flatMap_cons, LineCall.commands, List.append_assoc]
    refine pushes (by omega) (.call rfl ?_)
    rwa [Nat.sub_add_cancel (by omega)]

theorem eq_nil (h : Prints how s [] calls) : calls = [] := by
  cases h
  rfl

/-- The next command pushes a value, or makes the next call. -/
theorem cases_cons {cmd : Command} (h : Prints how s (cmd :: cmds) calls) :
    (∃ v, cmd = .push v 1 ∧ 0 < s.room ∧ Prints how ⟨v :: s.slots, s.room - 1⟩ cmds calls) ∨
    ∃ c below later, cmd = how c.method ∧ calls = c :: later ∧
      s.slots = c.values.reverse ++ below ∧
      Prints how ⟨below, s.room + c.values.length⟩ cmds later := by
  generalize hall : cmd :: cmds = all at h
  match h with
  | .done _ => exact absurd hall nofun
  | .push hroom h =>
    cases hall
    exact .inl ⟨_, rfl, hroom, h⟩
  | .call hslots h =>
    obtain ⟨rfl, rfl⟩ := List.cons.inj hall
    exact .inr ⟨_, _, _, rfl, rfl, hslots, h⟩

end Prints

/-! ### One turn -/

namespace Machine

variable {m m' : Machine} {cmd : Command} {t n : Nat} {k : Sink} {c : LineCall}

/-- The stack of a thread. -/
def stackOf (m : Machine) (t : Nat) : OperandStack :=
  m.threads[t]?.getD (.empty 0)

/-- A thread with something on its stack, or with room there, exists. -/
theorem lt_size_of_stackOf_ne (h : m.stackOf t ≠ .empty 0) : t < m.threads.size := by
  by_contra hge
  rw [stackOf, Array.getElem?_eq_none (Nat.le_of_not_lt hge)] at h
  exact h rfl

/-- A turn of the thread has left it this stack, and has changed no class that is registered, no
object, and no stack of another thread. -/
structure TurnsTo (m : Machine) (t : Nat) (s : OperandStack) (m' : Machine) : Prop where
  registry_eq : m'.registry = m.registry
  object_eq : ∀ q, m'.store.object q = m.store.object q
  stackOf_eq : ∀ t', m'.stackOf t' = if t' = t then s else m.stackOf t'

/-- A machine on which the selected thread has got another stack. -/
theorem stackOf_setStack (h : m.current < m.threads.size) (s : OperandStack) (t' : Nat) :
    (m.setStack s).stackOf t' = if t' = m.current then s else m.stackOf t' := by
  rw [stackOf, setStack]
  split
  next heq => rw [heq, Array.getElem?_setIfInBounds_self_of_lt h, Option.getD_some]
  next hne => rw [Array.getElem?_setIfInBounds_ne (Ne.symm hne), stackOf]

theorem turnsTo_push (h : m.current < m.threads.size) (hroom : 0 < m.stack.room) (v : Value) :
    m.TurnsTo m.current ⟨v :: m.stack.slots, m.stack.room - 1⟩ (m.step (.push v 1)).1 := by
  rw [step_push hroom]
  exact ⟨rfl, fun _ ↦ rfl, stackOf_setStack h _⟩

/-- Whoever calls a method does not write to a sink by itself, and takes nothing from it. -/
theorem spares_of_callee? {callee : Method} (h : m.callee? cmd = some callee) :
    cmd.Spares n ∧ ∀ reply, cmd.taken? n reply = none := by
  cases cmd with
  | call | invoke => exact ⟨trivial, fun _ ↦ rfl⟩
  | _ => cases h

/-- **A call that fits prints its line**, and takes its own slots and nothing else. -/
theorem turnsTo_call {below : List Value} (hcaptures : m.store.Captures n k)
    (hcallee : m.callee? cmd = some c.method.declared) (hfits : c.Fits m.store n)
    (hslots : m.stack.slots = c.values.reverse ++ below) :
    m.TurnsTo m.current ⟨below, m.stack.room + c.values.length⟩ (m.step cmd).1 ∧
      m.printed? n cmd = some (c.line m.store ++ "\n") := by
  obtain ⟨i, stream, hstate, hsink⟩ := hfits.stateOf_stream
  obtain ⟨hobject, -, -⟩ := Store.stateOf_eq_ok_iff.1 hstate
  have hcall := hfits.call_eq hstate hslots
  have hcurrent : m.current < m.threads.size := current_lt_of_depth_pos <| by
    rw [OperandStack.depth, hslots, List.length_append, List.length_reverse]
    exact Nat.lt_add_right _ (Nat.succ_pos _)
  have hstep : m.step cmd = (m.resume ⟨⟨below, m.stack.room + c.values.length⟩, m.store.callStream
      c.stream i stream (.write (c.line m.store ++ "\n").toUTF8)⟩, .done) := by
    rw [step_of_callee? hcallee, Machine.call, hcall]
    rfl
  refine ⟨?_, ?_⟩
  · rw [hstep]
    refine ⟨rfl, fun q ↦ ?_, stackOf_setStack hcurrent _⟩
    show (m.store.callStream _ i stream _).object q = _
    rw [Store.object_callStream hobject, hsink, hcaptures.sinkFailure?_eq]
  · have hshown : m.streamCall? cmd = some (c.stream, .printed (c.line m.store ++ "\n")) := by
      simp only [streamCall?, hcallee, hstep, Option.map_some]
      show c.method.event? m.store m.stack.slots (m.resume _).stack.slots = _
      rw [stack_resume hcurrent, hslots, LineCall.values, List.reverse_cons, List.append_assoc]
      exact StreamMethod.event?_eq c.readFrom_args hfits.action_eq c.stream below i stream
    rw [printed?_of_streamCall? hshown (Store.stream?_of_stateOf hstate), if_pos hsink]
    rfl

/-! ### All turns -/

/-- The machine has this schedule before it, by which its threads make the pending calls. -/
structure Ready (m : Machine) (n : Nat) (k : Sink) (how : StreamMethod → Command)
    (schedule : List (Nat × Command)) (pending : Nat → List LineCall) : Prop where
  captures : m.store.Captures n k
  callee : ∀ method, m.callee? (how method) = some method.declared
  fits : ∀ t, ∀ c ∈ pending t, c.Fits m.store n
  prints : ∀ t, Prints how (m.stackOf t) (ofThread t schedule) (pending t)

namespace Ready

variable {how : StreamMethod → Command} {schedule : List (Nat × Command)}
  {pending : Nat → List LineCall}

/-- A turn of one thread leaves it to the others as it was. -/
theorem of_turnsTo {k' : Sink} {s : OperandStack} {later : List LineCall}
    (h : m.Ready n k how ((t, cmd) :: schedule) pending) (hturns : m.TurnsTo t s m')
    (hcaptures : m'.store.Captures n k') (hprints : Prints how s (ofThread t schedule) later)
    (hlater : ∀ c ∈ later, c ∈ pending t) :
    m'.Ready n k' how schedule fun t' ↦ if t' = t then later else pending t' where
  captures := hcaptures
  callee method := (callee?_congr hturns.registry_eq _).trans (h.callee method)
  fits t' c hc := by
    have hmem : c ∈ pending t' := by
      split at hc
      next heq => exact heq ▸ hlater c hc
      · exact hc
    exact (h.fits t' c hmem).congr hturns.object_eq
  prints t' := by
    rw [hturns.stackOf_eq]
    split
    next heq => exact heq ▸ hprints
    next hne =>
      have hother := h.prints t'
      rwa [ofThread_cons_of_ne (Ne.symm hne)] at hother

/-- Whose turn it is, exists. -/
theorem lt_size (h : m.Ready n k how ((t, cmd) :: schedule) pending) : t < m.threads.size := by
  have hprints := h.prints t
  rw [ofThread_cons_self] at hprints
  refine lt_size_of_stackOf_ne fun hempty ↦ ?_
  rw [hempty] at hprints
  rcases hprints.cases_cons with ⟨v, -, hroom, -⟩ | ⟨c, below, later, -, -, hslots, -⟩
  · exact absurd hroom (Nat.lt_irrefl 0)
  · rw [LineCall.values, List.reverse_cons, List.append_assoc] at hslots
    exact absurd hslots.symm (List.append_ne_nil_of_right_ne_nil _ nofun)

/-- To select a thread changes nothing that matters. -/
theorem select (h : m.Ready n k how schedule pending) (ht : t < m.threads.size) :
    (m.select t).Ready n k how schedule pending := by
  rw [Machine.select, if_pos ht]
  exact ⟨h.captures, fun method ↦ (callee?_congr rfl _).trans (h.callee method), h.fits, h.prints⟩

/-- **A turn prints the next line of its thread, or prepares it.** -/
theorem turn (h : m.Ready n k how ((m.current, cmd) :: schedule) pending) :
    ∃ k' pending' made, (m.step cmd).1.Ready n k' how schedule pending' ∧
      (∀ q, (m.step cmd).1.store.object q = m.store.object q) ∧
      m.printed? n cmd = Option.map (fun c ↦ c.line m.store ++ "\n") made ∧
      ∀ t, pending t = (if t = m.current then made.toList else []) ++ pending' t := by
  have hprints := h.prints m.current
  rw [ofThread_cons_self] at hprints
  rcases hprints.cases_cons with
    ⟨v, rfl, hroom, hlater⟩ | ⟨c, below, later, rfl, hc, hslots, hlater⟩
  · have hturns := turnsTo_push h.lt_size hroom v
    refine ⟨_, _, none, h.of_turnsTo hturns (h.captures.step trivial) hlater fun _ ↦ id,
      hturns.object_eq, printed?_of_streamCall?_eq_none rfl, fun t ↦ ?_⟩
    split
    next heq => rw [heq]; rfl
    · rfl
  · have hcallee := h.callee c.method
    have hmem : ∀ c' ∈ c :: later, c' ∈ pending m.current := fun c' hc' ↦ hc ▸ hc'
    obtain ⟨hturns, hprinted⟩ :=
      turnsTo_call h.captures hcallee (h.fits _ c (hmem c List.mem_cons_self)) hslots
    refine ⟨_, _, some c, h.of_turnsTo hturns (h.captures.step (spares_of_callee? hcallee).1)
      hlater fun c' hc' ↦ hmem c' (List.mem_cons_of_mem c hc'), hturns.object_eq, hprinted,
      fun t ↦ ?_⟩
    split
    next heq => rw [heq, hc]; rfl
    · rfl

/-- **The turns print the pending lines**, those of each thread in their order. -/
theorem exists_calls (h : m.Ready n k how schedule pending) :
    ∃ calls : List (Nat × LineCall), (∀ t, ofThread t calls = pending t) ∧
      m.printed n (turns schedule) = calls.map fun (_, c) ↦ c.line m.store ++ "\n" := by
  induction schedule generalizing m k pending with
  | nil => exact ⟨[], fun t ↦ (h.prints t).eq_nil.symm, rfl⟩
  | cons use schedule ih =>
    obtain ⟨t, cmd⟩ := use
    have hselect : m.select t = { m with current := t } := if_pos h.lt_size
    have hready := h.select h.lt_size
    rw [hselect] at hready
    obtain ⟨k', pending', made, hnext, hobject, hprinted, hpending⟩ := hready.turn
    obtain ⟨calls, hcalls, hlines⟩ := ih hnext
    refine ⟨made.toList.map (t, ·) ++ calls, fun t' ↦ ?_, ?_⟩
    · rw [ofThread_append, ofThread_map, hcalls, hpending]
    · have hline : ∀ c : LineCall,
          c.line (({ m with current := t } : Machine).step cmd).1.store = c.line m.store :=
        fun _ ↦ LineCall.line_congr hobject
      have hfirst : m.printed n (turns ((t, cmd) :: schedule)) =
          (m.printed? n (.select t)).toList ++ (m.select t).printed n (cmd :: turns schedule) := rfl
      rw [hfirst, printed?_of_streamCall?_eq_none rfl, hselect, printed, hprinted, hlines]
      simp only [hline]
      rw [List.map_append]
      cases made <;> rfl

end Ready

/-! ### The output -/

/-- The threads of the machine can run these programs, which print lines to the sink: all methods
are found, every call fits, and every thread has room for the arguments of a call. -/
structure CanPrint (m : Machine) (n : Nat) (how : StreamMethod → Command)
    (programs : Nat → List LineCall) : Prop where
  callee : ∀ method, m.callee? (how method) = some method.declared
  fits : ∀ t, ∀ c ∈ programs t, c.Fits m.store n
  room : ∀ t, programs t ≠ [] → 2 ≤ (m.stackOf t).room

/-- What the bytes say of the calls by which threads printed lines. -/
structure LinesIntact (m : Machine) (programs : Nat → List LineCall) (calls : List (Nat × LineCall))
    (bytes : List UInt8) : Prop where
  /-- The calls of each thread are those of its program, in their order. -/
  ofThread_eq : ∀ t, ofThread t calls = programs t
  /-- There is one line for each call, and there are no others. -/
  splitOn_eq : bytes.splitOn Text.newline =
    (calls.map fun (_, c) ↦ Text.bytesOf (c.line m.store)) ++ [[]]
  /-- Every line is ended. -/
  ended : bytes = [] ∨ bytes.getLast? = some Text.newline
  /-- A number that was printed is read back from its line. -/
  toInt?_line : ∀ r i, ((LineCall.number r i).line m.store).toInt? = some i.toInt

section Output

variable {how : StreamMethod → Command} {programs : Nat → List LineCall}
  {schedule : List (Nat × Command)}

theorem CanPrint.ready (h : m.CanPrint n how programs) (hcaptures : m.store.Captures n k)
    (hschedule : ∀ t, ofThread t schedule = (programs t).flatMap (·.commands how)) :
    m.Ready n k how schedule programs where
  captures := hcaptures
  callee := h.callee
  fits := h.fits
  prints t := by
    rw [hschedule]
    rcases hprogram : programs t with - | ⟨c, later⟩
    · exact .done _
    · exact .of_program (h.room t (hprogram ▸ List.cons_ne_nil c later)) _

/-- What a thread does for its calls takes nothing from the sink, nor does it write there without a
stream. -/
theorem CanPrint.spares_of_mem (h : m.CanPrint n how programs)
    (hschedule : ∀ t, ofThread t schedule = (programs t).flatMap (·.commands how))
    (hcmd : cmd ∈ turns schedule) : cmd.Spares n ∧ ∀ reply, cmd.taken? n reply = none := by
  obtain ⟨⟨t, cmd'⟩, huse, hmem⟩ := List.mem_flatMap.1 hcmd
  rcases List.mem_pair.1 hmem with rfl | rfl
  · exact ⟨trivial, fun _ ↦ rfl⟩
  · have hprogram := mem_ofThread huse
    rw [hschedule] at hprogram
    obtain ⟨c, -, hc⟩ := List.mem_flatMap.1 hprogram
    rcases List.mem_append.1 hc with hpush | hcall
    · obtain ⟨v, -, rfl⟩ := List.mem_map.1 hpush
      exact ⟨trivial, fun _ ↦ rfl⟩
    · obtain rfl := List.mem_singleton.1 hcall
      exact spares_of_callee? (h.callee c.method)

theorem taken_eq_nil {cmds : List Command} (h : ∀ cmd ∈ cmds, ∀ reply, cmd.taken? n reply = none) :
    m.taken n cmds = [] := by
  induction cmds generalizing m with
  | nil => rfl
  | cons cmd cmds ih =>
    rw [taken, h cmd List.mem_cons_self,
      ih fun later hlater ↦ h later (List.mem_cons_of_mem _ hlater)]
    rfl

/-- Texts that end with a newline, one after the other. -/
theorem joined_lines (lines : List String) :
    joined (lines.map fun line ↦ (line ++ "\n").toUTF8) =
      Text.framed (lines.map Text.bytesOf) := by
  rw [joined, Text.framed, List.flatMap_map, List.flatMap_map]
  refine List.flatMap_congr fun line _ ↦ ?_
  show Text.bytesOf (line ++ "\n") = _
  rw [Text.bytesOf_append, Text.bytesOf_newline]

end Output

/-- **Lines never split.** Let threads print lines through streams that share one sink which never
fails and has kept nothing yet, each thread by a program of its own. In whatever order they take
their turns, the sink keeps one line for each call, and the lines of each thread are those of its
program, in their order. Every line is the whole text that was printed, and that of a number is read
as this number. -/
theorem lines_intact {how : StreamMethod → Command} {programs : Nat → List LineCall}
    {schedule : List (Nat × Command)} (hcaptures : m.store.Captures n k)
    (hempty : k.kept = ByteArray.empty) (hcan : m.CanPrint n how programs)
    (hschedule : ∀ t, ofThread t schedule = (programs t).flatMap (·.commands how)) :
    ∃ k' calls, (m.run (turns schedule)).1.store.sinks[n]? = some k' ∧
      m.LinesIntact programs calls k'.kept.data.toList := by
  obtain ⟨k', hk', hjoined⟩ := joined_run hcaptures fun cmd hcmd ↦
    (hcan.spares_of_mem hschedule hcmd).1
  obtain ⟨calls, hcalls, hprinted⟩ := (hcan.ready hcaptures hschedule).exists_calls
  rw [taken_eq_nil fun cmd hcmd ↦ (hcan.spares_of_mem hschedule hcmd).2, List.nil_append,
    joined_singleton, joined_cons, hempty, hprinted] at hjoined
  have hkept : k'.kept.data.toList =
      Text.framed (calls.map fun (_, c) ↦ Text.bytesOf (c.line m.store)) := by
    have hlines := joined_lines (calls.map fun (_, c) ↦ c.line m.store)
    rw [List.map_map, List.map_map] at hlines
    rw [List.map_map] at hjoined
    exact hjoined.trans hlines
  refine ⟨k', calls, hk'.sink_eq, hcalls, ?_, ?_, fun r i ↦ Text.toInt?_toString i.toInt⟩
  · rw [hkept]
    refine Text.splitOn_framed fun bytes hbytes ↦ ?_
    obtain ⟨⟨t, c⟩, hc, rfl⟩ := List.mem_map.1 hbytes
    have hprogram := mem_ofThread hc
    rw [hcalls] at hprogram
    exact Text.newline_not_mem_bytesOf (hcan.fits t c hprogram).newline_not_mem_line
  · rw [hkept]
    exact Text.framed_eq_nil_or_getLast? _

/-- A machine with two threads, two streams to one sink, and a string. -/
def twoPrinters : Machine :=
  ((new .capture none 2).run
    [.openStream streamClass 0, .openStream streamClass 0, .newText "hi", .newThread 2]).1

/-- The programs of the two threads. -/
def twoPrograms : Nat → List LineCall
  | 0 => [.text ⟨0⟩ (some ⟨2⟩), .number ⟨1⟩ Int32.minValue]
  | 1 => [.blank ⟨1⟩, .text ⟨0⟩ none]
  | _ => []

/-- The threads interrupt each other between the arguments of their calls. -/
def twoSchedule : List (Nat × Command) :=
  [(0, .push (.ref ⟨0⟩) 1), (1, .push (.ref ⟨1⟩) 1), (1, callMethod .println),
    (0, .push (.ref ⟨2⟩) 1), (1, .push (.ref ⟨0⟩) 1), (0, callMethod .printlnString),
    (1, .push .null 1), (0, .push (.ref ⟨1⟩) 1), (1, callMethod .printlnString),
    (0, .push (.int Int32.minValue) 1), (0, callMethod .printlnInt)]

/-- There are four lines. -/
theorem lines_intact_twoPrinters :
    ∃ k' calls, (twoPrinters.run (turns twoSchedule)).1.store.sinks[0]? = some k' ∧
      twoPrinters.LinesIntact twoPrograms calls k'.kept.data.toList := by
  have hstream : ∀ r : Ref, r.address < 2 → ∃ i stream,
      twoPrinters.store.stateOf r ClassName.printStream .stream = .ok (i, stream) ∧
        stream.sink = 0 := by
    rintro ⟨_ | _ | a⟩ hlt
    · exact ⟨_, .to 0, rfl, rfl⟩
    · exact ⟨_, .to 0, rfl, rfl⟩
    · exact absurd hlt (by simp)
  have hcan : twoPrinters.CanPrint 0 callMethod twoPrograms := by
    refine ⟨fun method ↦ by cases method <;> rfl, ?_, ?_⟩
    · rintro (_ | _ | t) c hc
      · rcases List.mem_pair.1 hc with rfl | rfl
        · refine ⟨hstream _ (by decide), fun r q heq ↦ ?_⟩
          cases heq
          exact ⟨"hi", rfl, by decide⟩
        · exact ⟨hstream _ (by decide), nofun⟩
      · rcases List.mem_pair.1 hc with rfl | rfl <;> exact ⟨hstream _ (by decide), nofun⟩
      · exact absurd hc List.not_mem_nil
    · rintro (_ | _ | t) hne
      · exact Nat.le_of_eq rfl
      · exact Nat.le_of_eq rfl
      · exact absurd rfl hne
  have hschedule : ∀ t,
      ofThread t twoSchedule = (twoPrograms t).flatMap (·.commands callMethod) := by
    rintro (_ | _ | t)
    · rfl
    · rfl
    · simp [ofThread, twoSchedule, twoPrograms]
  have hcaptures : twoPrinters.store.Captures 0 .capture := by
    have hnew : (new .capture none 2).store.Captures 0 .capture :=
      captures_new (fun _ _ ↦ rfl) none 2
    have hspares : ∀ cmd ∈ [Command.openStream streamClass 0, .openStream streamClass 0,
        .newText "hi", .newThread 2], cmd.Spares 0 := by
      simp [Command.Spares]
    obtain ⟨k', hk', -⟩ := joined_run hnew hspares
    obtain rfl : .capture = k' := Option.some.inj hk'.sink_eq
    exact hk'
  exact lines_intact hcaptures rfl hcan hschedule

end Machine

end HostMethods
