import IpUtils.HTTP.Concludes

/-! # Headers that are decided

A parser that comes to the end of its window stops without an event, and more bytes are read. With
the empty line in the window, it comes there only when a scan walks past the empty line, or when
bytes that cannot be right are taken for too few.
-/

namespace IpUtils

open CLib Scanner

/-! ## Parsers that stop without an event -/

section Stalls

variable {ω α β : Type}

/-- The parser stops without an event. -/
def Stalls (text : Bytes) (parser : Parse ω α) : Prop :=
  ∀ exec, exec.error.event = false →
    (parser text exec).1 = none ∧ (parser text exec).2.error.event = false

/-- The parser goes on without an event. -/
def Passes (text : Bytes) (parser : Parse ω α) (value : α) (rest : Bytes) : Prop :=
  ∀ exec, exec.error.event = false →
    ∃ exec', parser text exec = (some (value, rest), exec') ∧ exec'.error.event = false

variable {text between rest : Bytes} {test : UInt8 → Bool}

theorem Stalls.bind {first : Parse ω α} {next : α → Parse ω β} (head : Stalls text first) :
    Stalls text (first >>= next) := by
  intro exec calm
  obtain ⟨stops, quiet⟩ := head exec calm
  rcases outcome : first text exec with ⟨none_ | delivered, exec'⟩
  · rw [outcome] at quiet
    rw [bind_of_none outcome]
    exact ⟨rfl, quiet⟩
  · rw [outcome] at stops
    cases stops

theorem Passes.then {first : Parse ω α} {next : α → Parse ω β} {value : α}
    (head : Passes text first value between) (tail : Stalls between (next value)) :
    Stalls text (first >>= next) := by
  intro exec calm
  obtain ⟨exec', ran, quiet⟩ := head exec calm
  rw [bind_of_some ran]
  exact tail exec' quiet

theorem Passes.bind {first : Parse ω α} {next : α → Parse ω β} {value : α} {value' : β}
    (head : Passes text first value between) (tail : Passes between (next value) value' rest) :
    Passes text (first >>= next) value' rest := by
  intro exec calm
  obtain ⟨exec', ran, quiet⟩ := head exec calm
  rw [bind_of_some ran]
  exact tail exec' quiet

theorem Stalls.onStop {parser : Parse ω α} {change : Exec ω → Exec ω} (stalls : Stalls text parser)
    (calms : ∀ exec, exec.error.event = false → (change exec).error.event = false) :
    Stalls text (Scanner.onStop change parser) := by
  intro exec calm
  obtain ⟨stops, quiet⟩ := stalls exec calm
  unfold Scanner.onStop
  rcases outcome : parser text exec with ⟨none_ | delivered, exec'⟩
  · rw [outcome] at quiet
    exact ⟨rfl, calms exec' quiet⟩
  · rw [outcome] at stops
    cases stops

theorem Passes.onStop {parser : Parse ω α} {change : Exec ω → Exec ω} {value : α}
    (passes : Passes text parser value rest) :
    Passes text (Scanner.onStop change parser) value rest := by
  intro exec calm
  obtain ⟨exec', ran, quiet⟩ := passes exec calm
  refine ⟨exec', ?_, quiet⟩
  unfold Scanner.onStop
  rw [ran]

end Stalls

namespace HTTPFraming

/-! ## Fields -/

variable {text : Bytes}

variable {env : ParseEnv} {buf : Bytes} {exec : Exec HTTPFraming} {chunked : ChunkBuf}

end HTTPFraming

end IpUtils
