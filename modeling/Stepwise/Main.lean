import Std.Time.Format
import Stepwise.Cli.Plan

/-!
# The program

The program does in real time what its command line asks for: a wait lasts as long as it should,
and printed lines are shown whenever a script waits. What is to be done is decided by `Cli.plan`.
-/

namespace Stepwise.Cli

/-- The time now. -/
def clock : IO String := do
  let now := Std.Time.DateTime.ofTimestamp (← Std.Time.Timestamp.now) .UTC
  return now.format "uuuu-MM-dd'T'HH:mm:ss.SSSSSSSSS'Z'"

/-- The text of a file, if it can be read. -/
def readText? (path : String) : IO (Option String) := do
  try
    return some (← IO.FS.readFile path)
  catch _ =>
    return none

/-- Lets milliseconds pass. -/
def pause (ticks : Nat) : IO Unit := do
  for _ in [0:ticks / 1000000000] do
    IO.sleep 1000000000
  IO.sleep (ticks % 1000000000).toUInt32

/-- Carries out a process in real time. Gives also the times of the steps in the history. -/
def carryOutLive {α : Type} :
    Process α → Run → Timeline → Array String → IO (α × Run × Timeline × Array String)
  | .done x, r, t, times => return (x, r, t, times)
  | .access c next, r, t, times => do
    let (x, r) := c.perform r
    let times ← if times.size < r.history.size then pure (times.push (← clock)) else pure times
    carryOutLive (next x) r t times
  | .wait w next, r, t, times => do
    let (x, r, later) := Timeline.world.await w r t
    let (lines, later) := later.taken
    for line in lines do
      IO.println line
    pause (later.now - t.now)
    carryOutLive (next x) r later times

/-- Shows a report, and gives the code to end with. -/
def Report.emit (r : Report) : IO UInt32 := do
  for line in r.out do
    IO.println line
  for line in r.err do
    IO.eprintln line
  return r.code.toUInt32

/-- Does what is to be done. -/
def Plan.carryOut : Plan → IO UInt32
  | .report r => r.emit
  | .execute session script ending => do
    let process := session.engine.execute session.run.name script
    let (result, run, t, times) ← carryOutLive process session.run (session.listened Span.max) #[]
    for line in t.heard run.output do
      IO.println line
    (ending (fun i => times[i]?.getD "") result run).emit

end Stepwise.Cli

open Stepwise.Cli in
/-- Does what the command line asks for. -/
def main (words : List String) : IO UInt32 := do
  let home := (← IO.getEnv "HOME").getD "~"
  let configPath ← IO.getEnv "RUNBOOK_CONFIG_PATH"
  let surroundings : Surroundings := { home, configPath, file := fun _ => none }
  let texts ← (filesNeeded surroundings words).mapM fun path => return (path, ← readText? path)
  (plan { surroundings with file := fun path => (texts.lookup path).join } words).carryOut
