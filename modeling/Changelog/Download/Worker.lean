import Changelog.Download.RemoteSet

/-!
The worker that downloads the images of a batch one after the other. Before each job it looks
whether the images are still wanted; a failure does not keep it from the next job.
-/

namespace Changelog

/-- What a worker is doing. -/
inductive WorkerPhase where
  /-- Between two jobs, or at the end. -/
  | ready
  /-- Waiting for the data of a job. -/
  | fetching (job : Job)
  /-- The slot of the last job is final, but not counted yet. -/
  | delivered
deriving DecidableEq, Repr

/-- The jobs still to do, and the addresses requested so far. -/
structure Worker where
  queue : List Job
  phase : WorkerPhase := .ready
  requests : List Text := []
deriving DecidableEq, Repr

namespace Worker

/-- Whether the worker has come to its end. -/
def isFinished (w : Worker) : Bool :=
  w.phase = .ready && w.queue.isEmpty

/-- One look at the next job: the worker stops if the images are no longer wanted, passes over a
job that was taken up before, and else requests its address. -/
def look (set : RemoteSet) (w : Worker) : RemoteSet × Worker :=
  match w.phase, w.queue with
  | .ready, job :: rest =>
    if set.disposed then (set, { w with queue := [] })
    else
      match set.start job with
      | (set, true) =>
        (set, ⟨rest, .fetching job, w.requests ++ [set.url job]⟩)
      | (set, false) => (set, { w with queue := rest })
  | _, _ => (set, w)

/-- The data of the current job arrive. -/
def deliver (fetch : Fetcher) (set : RemoteSet) (w : Worker) : RemoteSet × Worker :=
  match w.phase with
  | .fetching job => (set.deliver job (fetch (set.url job)), { w with phase := .delivered })
  | _ => (set, w)

/-- The job just ended is counted. -/
def count (set : RemoteSet) (w : Worker) : RemoteSet × Worker :=
  match w.phase with
  | .delivered => (set.count, { w with phase := .ready })
  | _ => (set, w)

/-- A state of a set and its worker. -/
abbrev State := RemoteSet × Worker

/-- Looks at jobs until one is fetched or none is left, at most `fuel` times. -/
def lookOn : (fuel : Nat) → State → State
  | 0, s => s
  | fuel + 1, s => if s.2.phase = .ready then lookOn fuel (look s.1 s.2) else s

/-- Goes on to the next fetch, or to the end. -/
def toNextFetch (s : State) : State :=
  lookOn (s.2.queue.length + 1) s

/-- Ends the current fetch, if there is one. -/
def endFetch (fetch : Fetcher) (s : State) : State :=
  let s := deliver fetch s.1 s.2
  count s.1 s.2

/-- Ends the current fetch and goes on to the next one. -/
def pass (fetch : Fetcher) (s : State) : State :=
  toNextFetch (endFetch fetch s)

/-- Passes `fuel` times from fetch to fetch. -/
def passOn (fetch : Fetcher) : (fuel : Nat) → State → State
  | 0, s => s
  | fuel + 1, s => passOn fetch fuel (pass fetch s)

/-- Lets every fetch through, to the end. Each pass leaves fewer jobs. -/
def toEnd (fetch : Fetcher) (s : State) : State :=
  passOn fetch (s.2.queue.length + 1) s

end Worker

namespace RemoteSet

/-- Does the jobs in order, and gives the addresses requested. While the data of an address are
under way, `meanwhile` tells what else happens to the set. -/
def downloadAll (fetch : Fetcher) (meanwhile : Text → RemoteSet → RemoteSet) (set : RemoteSet) :
    List Job → RemoteSet × List Text
  | [] => (set, [])
  | job :: rest =>
    if set.disposed then (set, [])
    else
      match set.start job with
      | (set, true) =>
        let url := set.url job
        let set := ((meanwhile url set).deliver job (fetch url)).count
        let (set, urls) := set.downloadAll fetch meanwhile rest
        (set, url :: urls)
      | (set, false) => set.downloadAll fetch meanwhile rest

end RemoteSet

end Changelog
