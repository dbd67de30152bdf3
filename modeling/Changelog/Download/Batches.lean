import Changelog.Download.Worker

/-!
The download batches of one image cache. Each batch has a worker of its own. A batch is begun only
after the worker of the batch before has ended, and disposing of the images puts an empty set in
place of the old one without waiting for the old worker.
-/

namespace Changelog

/-- A worker and the number of the set that it works on. -/
structure BatchWorker where
  set : Nat
  worker : Worker
deriving DecidableEq, Repr

/-- The sets in the order of their creation, all workers started so far, and the number of the
worker that is waited for. -/
structure Batches where
  retired : List RemoteSet := []
  current : RemoteSet := {}
  workers : List BatchWorker := []
  awaited : Option Nat := none
deriving DecidableEq, Repr

namespace Batches

/-- The set of a number. -/
def set (b : Batches) (number : Nat) : RemoteSet :=
  (b.retired[number]?).getD b.current

/-- Puts a set in the place of the set of a number. -/
def putSet (b : Batches) (number : Nat) (set : RemoteSet) : Batches :=
  if number < b.retired.length then { b with retired := b.retired.set number set }
  else { b with current := set }

/-- Lets the worker of a number act. -/
def onWorker (b : Batches) (number : Nat) (act : Worker.State → Worker.State) : Batches :=
  match b.workers[number]? with
  | some w =>
    let (set, worker) := act (b.set w.set, w.worker)
    { b.putSet w.set set with workers := b.workers.set number { w with worker } }
  | none => b

/-- Lets the awaited worker act. -/
def onAwaited (b : Batches) (act : Worker.State → Worker.State) : Batches :=
  match b.awaited with
  | some number => b.onWorker number act
  | none => b

/-- Whether the awaited worker is still at work. -/
def isRunning (b : Batches) : Bool :=
  (b.awaited.bind fun number => b.workers[number]?).any fun w => !w.worker.isFinished

/-- Lets the awaited worker do all its jobs. -/
def wait (fetch : Fetcher) (b : Batches) : Batches :=
  { b.onAwaited (Worker.toEnd fetch) with awaited := none }

/-- Registers images and starts a worker for them, if there are any. -/
def spawn (images : List RemoteImage) (b : Batches) : Batches :=
  let (set, jobs) := b.current.register images
  let b := { b with current := set }
  if jobs.isEmpty then { b with awaited := none }
  else
    { b with
      workers := b.workers ++ [⟨b.retired.length, { queue := jobs }⟩]
      awaited := some b.workers.length }

/-- Waits for the batch before, then starts the next one, up to its first fetch. -/
def begin (fetch : Fetcher) (images : List RemoteImage) (b : Batches) : Batches :=
  ((b.wait fetch).spawn images).onAwaited Worker.toNextFetch

/-- Lets the fetch under way end; the worker goes on to its next fetch. -/
def release (fetch : Fetcher) (b : Batches) : Batches :=
  b.onAwaited (Worker.pass fetch)

/-- Gives up the current set for an empty one. The worker that fills the old set is still waited
for. -/
def dispose (b : Batches) : Batches :=
  { b with retired := b.retired ++ [b.current.clear], current := {} }

/-- The addresses requested by all batches. -/
def requests (b : Batches) : List Text :=
  b.workers.flatMap fun w => w.worker.requests

end Batches

end Changelog
