import ScatterGather.Merger
/-!
Mergers of texts.
-/
namespace ScatterGather.Merger

def join (strategy separator : String) : Merger String :=
  ⟨strategy, fun parts => .value (separator.intercalate parts)⟩

def first (strategy : String) : Merger String := ⟨strategy, fun parts => .value (parts.headD "")⟩

def last (strategy : String) : Merger String :=
  ⟨strategy, fun parts => .value (parts.getLastD "")⟩

/-- The longest part in UTF-8; the first one of several. -/
def longest (strategy : String) : Merger String :=
  ⟨strategy, fun parts => .value <|
    parts.foldl (fun best s => if best.utf8ByteSize < s.utf8ByteSize then s else best) ""⟩

def count (strategy : String) : Merger String :=
  ⟨strategy, fun parts => .value (toString parts.length)⟩

def panicking (strategy : String) : Merger String := ⟨strategy, fun _ => .panic⟩

def failing (strategy : String) (e : QueryError) : Merger String := ⟨strategy, fun _ => .failure e⟩

end ScatterGather.Merger
