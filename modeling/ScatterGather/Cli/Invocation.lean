import ScatterGather.Cli.Arguments
import ScatterGather.Cli.Run
/-!
The commands and their options.
-/
namespace ScatterGather.Cli

inductive Command
  | run (request : Request) (overrides : Overrides)
  | config (overrides : Overrides) (save : Option String)
  deriving DecidableEq

structure Invocation where
  verbose : Bool
  /-- The file with the settings. -/
  config : Option String
  command : Command
  deriving DecidableEq

namespace Invocation

/-- A decimal numeral of a 64-bit word; a plus sign may stand before it. -/
def word? (s : String) : Option UInt64 :=
  let digits := match s.toList with
    | '+' :: r => r
    | r => r
  if digits.isEmpty ∨ digits.any fun c => !c.isDigit then none
  else
    let n := digits.foldl (fun n c => 10 * n + (c.toNat - '0'.toNat)) 0
    if n < UInt64.size then some (UInt64.ofNat n) else none

/-- What is read along the way, with the options that every command takes. -/
structure Draft where
  verbose : Bool := false
  config : Option String := none
  metrics : List String := []
  failing : Option String := none
  cancelAfter : Option UInt64 := none
  save : Option String := none
  overrides : Overrides := {}

/-- An option that may be given once. -/
def once {α : Type} (earlier : Option α) (now : Option α) (set : α → Draft) : Except Stop Draft :=
  match earlier, now with
  | none, some a => .ok (set a)
  | _, _ => .error .misuse

/-- A path is never empty. -/
def path? (s : String) : Option String := if s.isEmpty then none else some s

def verboseOpt : Opt Draft :=
  ⟨"verbose", some 'v', .flag fun d =>
    if d.verbose then .error .misuse else .ok { d with verbose := true }⟩

def configOpt : Opt Draft :=
  ⟨"config", some 'c', .value fun s d =>
    once d.config (path? s) fun p => { d with config := some p }⟩

def helpOpt : Opt Draft := ⟨"help", some 'h', .flag fun _ => .error .help⟩

def versionOpt : Opt Draft := ⟨"version", some 'V', .flag fun _ => .error .version⟩

def globalOpts : List (Opt Draft) := [verboseOpt, configOpt, helpOpt]

def override (set : Overrides → Overrides) (d : Draft) : Draft :=
  { d with overrides := set d.overrides }

def parallelOpt : Opt Draft :=
  ⟨"parallel", some 'p', .value fun s d =>
    once d.overrides.parallelism (word? s) fun n => override ({ · with parallelism := some n }) d⟩

def mergeOpt : Opt Draft :=
  ⟨"merge", none, .value fun s d =>
    once d.overrides.strategy (some s) fun s => override ({ · with strategy := some s }) d⟩

/-- Metrics are separated by commas, and add up over several options. -/
def metricsOpt : Opt Draft :=
  ⟨"metrics", some 'm', .value fun s d => .ok { d with metrics := d.metrics ++ s.splitOn "," }⟩

def runOpts : List (Opt Draft) :=
  globalOpts ++ [metricsOpt, parallelOpt, mergeOpt,
    ⟨"fail", some 'f', .value fun s d =>
      once d.failing (some s) fun s => { d with failing := some s }⟩,
    ⟨"cancel-after-ms", none, .value fun s d =>
      once d.cancelAfter (word? s) fun n => { d with cancelAfter := some n }⟩,
    ⟨"latency-ms", some 'l', .value fun s d =>
      once d.overrides.latency (word? s) fun n => override ({ · with latency := some n }) d⟩,
    ⟨"points", none, .value fun s d =>
      once d.overrides.points (word? s) fun n => override ({ · with points := some n }) d⟩]

def configOpts : List (Opt Draft) :=
  globalOpts ++ [parallelOpt, mergeOpt,
    ⟨"save", some 's', .value fun s d =>
      once d.save (path? s) fun p => { d with save := some p }⟩]

def commandNames : List String := ["run", "config", "help"]

def runCommand (d : Draft) : Except Stop Command :=
  if d.metrics.isEmpty then .error .misuse
  else .ok (.run ⟨d.metrics, d.failing, d.cancelAfter⟩ d.overrides)

def configCommand (d : Draft) : Except Stop Command := .ok (.config d.overrides d.save)

/-- Options of a command go before the same ones in front of it. -/
def ofCommand (outer : Draft) (opts : List (Opt Draft)) (words : List String)
    (command : Draft → Except Stop Command) : Except Stop Invocation :=
  match Opt.read opts words {} with
  | .error s => .error s
  | .ok (_, some _) => .error .misuse
  | .ok (inner, none) =>
    (command inner).map fun c =>
      ⟨outer.verbose || inner.verbose, inner.config <|> outer.config, c⟩

/-- Help may be asked for by the name of a command. -/
def helpFor : List String → Stop
  | [] => .help
  | [name] => if name ∈ commandNames then .help else .misuse
  | _ => .misuse

def ofWords (words : List String) : Except Stop Invocation :=
  match Opt.read (versionOpt :: globalOpts) words {} with
  | .error s => .error s
  | .ok (_, none) => .error .misuse
  | .ok (outer, some (name, rest)) =>
    if name = "run" then ofCommand outer runOpts rest runCommand
    else if name = "config" then ofCommand outer configOpts rest configCommand
    else if name = "help" then .error (helpFor rest)
    else .error .misuse

end Invocation
end ScatterGather.Cli
