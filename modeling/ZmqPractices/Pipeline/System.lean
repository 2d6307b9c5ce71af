import ZmqPractices.Czmq.Format
import ZmqPractices.Lib.Channel
import ZmqPractices.Lib.Printed
import ZmqPractices.Lib.Table
import ZmqPractices.Lib.Transition

/-!
The task pipeline: a ventilator (`task_ventilator.cpp`) that pushes a batch of tasks to any
number of workers (`task_worker.cpp`), whose results a sink counts (`task_sink.cpp`).

A task is the text of its workload in milliseconds, a result is an empty message, and the
batch begins with a message of the ventilator to the sink. The sink takes the messages of
all its peers as they come, and looks at none of them. How long a worker sleeps for a
workload depends on the build (`msleep`). `none` is a call the C++ code cannot survive:
writing past the end of a buffer.
-/

namespace ZmqPractices.Pipeline

open Czmq Lib

/-- How many tasks the ventilator sends and how many results the sink waits for. -/
def batchSize : Nat := 100

/-- The size of `msg` in the ventilator and of `buf` in the others. -/
def bufferSize : Nat := 10

/-! ### Texts -/

/-- `sprintf (msg, "%d", workload)`. -/
def taskText (workload : Nat) : Option Frame :=
  let text := printed 10 workload
  if text.length < bufferSize then some text else none

/-- `zmq_recv` gives the length of the whole message, and the worker ends the text there. -/
def readTask (msg : Frame) : Option Int :=
  if msg.length < bufferSize then some (atoi (zframeStrdup msg)) else none

/-! ### The three programs -/

/-- The variables of the ventilator's `main`, and whether the batch is announced. -/
structure Ventilator where
  announced : Bool
  t : Nat
  totalWorkload : Nat
deriving DecidableEq, Repr

def Ventilator.start : Ventilator := ⟨false, 0, 0⟩

/-- `rand () % 100 + 1`. -/
def workloadOf (rand : Nat) : Nat := rand % 100 + 1

/-- A turn of the loop, with the task it sends. -/
def Ventilator.send (v : Ventilator) (rand : Nat) : Option (Ventilator × Frame) :=
  if v.announced ∧ v.t < batchSize then
    (taskText (workloadOf rand)).map fun msg =>
      ({ v with t := v.t + 1, totalWorkload := v.totalWorkload + workloadOf rand }, msg)
  else none

/-- `MSLEEP (ms)`: for how many milliseconds the worker sleeps. On Windows it is `Sleep`, which
takes milliseconds. Elsewhere it is `sleep`, which takes seconds, of the thousandfold. -/
def msleep (build : Build) (ms : Int) : Int :=
  match build with
  | .windows => ms
  | .posix => 1000 * (ms * 1000)

/-- A worker by its name, with the workload it sleeps for; `slept` is, for the statements
only, for how many milliseconds it has slept in all. -/
structure Worker where
  name : Nat
  workload : Option Int
  slept : Int
deriving DecidableEq, Repr

def Worker.take (workload : Int) (w : Worker) : Worker := { w with workload := some workload }

def Worker.finish (build : Build) (w : Worker) : Worker :=
  { w with workload := none, slept := w.slept + msleep build (w.workload.getD 0) }

/-- The sink waits for the start of the batch, and counts results in `t` then. -/
structure Sink where
  started : Bool
  t : Nat
deriving DecidableEq, Repr

def Sink.start : Sink := ⟨false, 0⟩

def Sink.receive (sink : Sink) : Option Sink :=
  if sink.started = false then some { sink with started := true }
  else if sink.t < batchSize then some { sink with t := sink.t + 1 } else none

/-! ### The system -/

/-- From the ventilator to the sink, from it to a worker, and from a worker to the sink. -/
inductive Chan where
  | announce
  | task (worker : Nat)
  | result (worker : Nat)
deriving DecidableEq, Repr

def Chan.toSink : Chan → Bool
  | .task _ => false
  | _ => true

/-- The programs, the messages on their way and, for the statements only, those that were
lost. -/
structure State where
  ventilator : Ventilator
  workers : List Worker
  sink : Sink
  net : Net Chan Frame
  lost : Net Chan Frame
deriving Repr

/-- The ventilator announces the batch, or sends a task to a worker that is connected; a
worker starts, takes a task, or has slept; the sink takes a message from one of its peers;
or a message is lost. -/
inductive Label where
  | announce
  | send (worker rand : Nat)
  | start (worker : Nat)
  | take (worker : Nat)
  | finish (worker : Nat)
  | collect (chan : Chan)
  | lose (packet : Nat)
deriving DecidableEq, Repr

def State.setWorker (s : State) (worker : Nat) (write : Worker → Worker) : State :=
  { s with workers := Table.update Worker.name worker write s.workers }

def step (build : Build) (s : State) : Label → Option State
  | .announce =>
      if s.ventilator.announced then none
      else some { s with
        ventilator := { s.ventilator with announced := true }
        net := s.net.send .announce [0x30] }
  | .send worker rand =>
      match Table.find Worker.name worker s.workers with
      | none => none
      | some _ => (s.ventilator.send rand).map fun (ventilator, msg) =>
          { s with ventilator := ventilator, net := s.net.send (.task worker) msg }
  | .start worker =>
      match Table.find Worker.name worker s.workers with
      | none => some { s with workers := ⟨worker, none, 0⟩ :: s.workers }
      | some _ => none
  | .take worker =>
      match Table.find Worker.name worker s.workers with
      | some ⟨_, none, _⟩ => do
          let (msg, net) ← Net.recv (.task worker) s.net
          let workload ← readTask msg
          return { s.setWorker worker (.take workload) with net := net }
      | _ => none
  | .finish worker =>
      match Table.find Worker.name worker s.workers with
      | some ⟨_, some _, _⟩ =>
          some { s.setWorker worker (.finish build) with net := s.net.send (.result worker) [] }
      | _ => none
  | .collect chan =>
      if chan.toSink then do
        let (_, net) ← Net.recv chan s.net
        let sink ← s.sink.receive
        return { s with sink := sink, net := net }
      else none
  | .lose packet =>
      s.net[packet]?.map fun p => { s with net := s.net.eraseIdx packet, lost := p :: s.lost }

/-- The programs from their start, before any worker. -/
def pipeline (build : Build) : System State Label where
  start := ⟨.start, [], .start, [], []⟩
  step := step build

/-! ### What a step is -/

/-- What each step needs and where it leads. -/
inductive Stepped (build : Build) (s : State) : Label → State → Prop
  | announce (pending : s.ventilator.announced = false) :
      Stepped build s .announce { s with
        ventilator := { s.ventilator with announced := true }
        net := s.net.send .announce [0x30] }
  | send (worker rand : Nat) (w : Worker)
      (connected : Table.find Worker.name worker s.workers = some w)
      (announced : s.ventilator.announced = true) (more : s.ventilator.t < batchSize) :
      Stepped build s (.send worker rand) { s with
        ventilator := { s.ventilator with
          t := s.ventilator.t + 1
          totalWorkload := s.ventilator.totalWorkload + workloadOf rand }
        net := s.net.send (.task worker) (printed 10 (workloadOf rand)) }
  | start (worker : Nat) (missing : Table.find Worker.name worker s.workers = none) :
      Stepped build s (.start worker) { s with workers := ⟨worker, none, 0⟩ :: s.workers }
  | take (worker : Nat) (w : Worker) (msg : Frame) (net : Net Chan Frame) (workload : Int)
      (found : Table.find Worker.name worker s.workers = some w) (idle : w.workload = none)
      (received : Net.recv (.task worker) s.net = some (msg, net))
      (read : readTask msg = some workload) :
      Stepped build s (.take worker) { s.setWorker worker (.take workload) with net := net }
  | finish (worker : Nat) (w : Worker) (workload : Int)
      (found : Table.find Worker.name worker s.workers = some w)
      (busy : w.workload = some workload) :
      Stepped build s (.finish worker)
        { s.setWorker worker (.finish build) with net := s.net.send (.result worker) [] }
  | collect (chan : Chan) (msg : Frame) (net : Net Chan Frame) (sink : Sink)
      (toSink : chan.toSink = true) (received : Net.recv chan s.net = some (msg, net))
      (counted : s.sink.receive = some sink) :
      Stepped build s (.collect chan) { s with sink := sink, net := net }
  | lose (packet : Nat) (p : Chan × Frame) (found : s.net[packet]? = some p) :
      Stepped build s (.lose packet) { s with net := s.net.eraseIdx packet, lost := p :: s.lost }

theorem step_stepped {build : Build} {s s' : State} {l : Label}
    (taken : (pipeline build).step s l = some s') : Stepped build s l s' := by
  cases l with
  | announce =>
      obtain ⟨pending, same⟩ := Option.ite_none_left_eq_some.mp taken
      obtain rfl := Option.some.inj same
      exact .announce (Bool.eq_false_iff.mpr pending)
  | send worker rand =>
      simp only [pipeline, step] at taken
      split at taken
      · cases taken
      · rename_i w connected
        obtain ⟨⟨ventilator, msg⟩, sent, rfl⟩ := Option.map_eq_some_iff.mp taken
        obtain ⟨⟨announced, more⟩, sent⟩ := Option.ite_none_right_eq_some.mp sent
        obtain ⟨text, written, same⟩ := Option.map_eq_some_iff.mp sent
        obtain ⟨-, written⟩ := Option.ite_none_right_eq_some.mp written
        obtain ⟨rfl, rfl⟩ := Prod.mk.inj same
        obtain rfl := Option.some.inj written
        exact .send worker rand w connected announced more
  | start worker =>
      simp only [pipeline, step] at taken
      split at taken
      · rename_i missing
        obtain rfl := Option.some.inj taken
        exact .start worker missing
      · cases taken
  | take worker =>
      simp only [pipeline, step] at taken
      split at taken
      · rename_i found
        obtain ⟨⟨msg, net⟩, received, taken⟩ := Option.bind_eq_some_iff.mp taken
        obtain ⟨workload, read, taken⟩ := Option.bind_eq_some_iff.mp taken
        obtain rfl := Option.some.inj taken
        exact .take worker _ msg net workload found rfl received read
      · cases taken
  | finish worker =>
      simp only [pipeline, step] at taken
      split at taken
      · rename_i workload _ found
        obtain rfl := Option.some.inj taken
        exact .finish worker _ workload found rfl
      · cases taken
  | collect chan =>
      obtain ⟨toSink, taken⟩ := Option.ite_none_right_eq_some.mp taken
      obtain ⟨⟨msg, net⟩, received, taken⟩ := Option.bind_eq_some_iff.mp taken
      obtain ⟨sink, counted, taken⟩ := Option.bind_eq_some_iff.mp taken
      obtain rfl := Option.some.inj taken
      exact .collect chan msg net sink toSink received counted
  | lose packet =>
      obtain ⟨p, found, rfl⟩ := Option.map_eq_some_iff.mp taken
      exact .lose packet p found

end ZmqPractices.Pipeline
