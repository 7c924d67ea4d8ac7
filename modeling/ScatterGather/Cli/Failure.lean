import ScatterGather.Cli.Settings
/-!
Why a command fails, and how that is told: the message, and below it the causes, numbered when there
are several.
-/
namespace ScatterGather.Cli

inductive Failure
  | load (e : LoadError)
  | settings (f : SettingsFault)
  | noMetrics
  | unknownStrategy (strategy : String) (known : List String)
  | sharding (e : ShardingError)
  | save (e : FileError)
  deriving DecidableEq

namespace Failure

def message : Failure → String
  | .load e => e.message
  | .settings (.sharding e) => e.message
  | .settings .noPoints => noPointsMessage
  | .noMetrics => "At least one metric is required"
  | .unknownStrategy strategy known =>
    let names := ", ".intercalate known
    s!"Unknown merge strategy '{strategy}' (known: {names})"
  | .sharding e => e.message
  | .save e => e.message

def causes : Failure → List String
  | .settings (.sharding e) => e.causes
  | .sharding e => e.causes
  | _ => []

/-- A cause with its first line behind `lead` and the others as far in. -/
def indent (lead : String) (cause : String) : String :=
  let blank := String.ofList (List.replicate lead.length ' ')
  lead ++ ("\n" ++ blank).intercalate (cause.splitOn "\n")

def numberLead (n : Nat) : String :=
  let digits := toString n
  String.ofList (List.replicate (5 - digits.length) ' ') ++ digits ++ ": "

def causeLines : List String → List String
  | [] => []
  | [c] => [indent "    " c]
  | cs => cs.mapIdx fun i c => indent (numberLead i) c

def report (f : Failure) : String :=
  match f.causes with
  | [] => s!"Error: {f.message}\n"
  | cs =>
    let body := "\n".intercalate (causeLines cs)
    s!"Error: {f.message}\n\nCaused by:\n{body}\n"

end Failure
end ScatterGather.Cli
