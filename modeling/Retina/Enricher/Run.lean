import Retina.Enricher.Enrich

/-! # The loop of the enricher

One goroutine reads the ring of the plugins and writes the ring of the metrics module. It is told when the
plugins have overtaken it, goes on with a later flow, and does not count what it missed. How the rings work
is a parameter.
-/
namespace Retina

/-- The last two fields are what the loop has read so far, with the cache at each lookup, and what it has missed. -/
structure Enricher (Rest : Type) where
  inputRing : Ring (Enricher.Flow Rest)
  reader : ℕ
  outputRing : Ring (Enricher.Flow Rest)
  read : List (ℕ × (Enricher.Lookup → Enricher.CacheInterface)) := []
  missed : ℕ := 0

namespace Enricher
variable {Rest : Type} (b : Ring.Behaviour)

def capacity1023 : ℕ := 1023

def newEnricher : Enricher Rest where
  inputRing := { capacity := capacity1023 }
  reader := b.oldestWrite capacity1023 0
  outputRing := { capacity := capacity1023 }

def write (e : Enricher Rest) (f : Flow Rest) : Enricher Rest := { e with inputRing := e.inputRing.write f }

def exportTo (outputRing : Ring (Flow Rest)) : Option (Flow Rest) → Ring (Flow Rest)
  | some f => outputRing.write f
  | none => outputRing

/-- One round of the loop, in which `NextFollow` returns or still waits. -/
def next (e : Enricher Rest) (cache : Lookup → CacheInterface) : Enricher Rest :=
  match e.inputRing.readFrom b e.reader with
  | .event f =>
    { e with
      reader := e.reader + 1
      outputRing := exportTo e.outputRing (enrich cache f)
      read := e.read ++ [(e.reader,cache)] }
  | .lost passed _ => { e with reader := e.reader + passed, missed := e.missed + passed }
  | .wait => e

def exported (e : Enricher Rest) (x : ℕ × (Lookup → CacheInterface)) : Option (Flow Rest) :=
  e.inputRing.written[x.1]?.bind (enrich x.2)

structure InOrder (e : Enricher Rest) : Prop where
  passed : Ring.Passed (e.read.map Prod.fst) e.reader
  written : e.reader ≤ e.inputRing.written.length
  output : e.outputRing.written = e.read.filterMap e.exported
  complete : e.reader = e.read.length + e.missed

variable {b} {e : Enricher Rest}

theorem inOrder_newEnricher : (newEnricher b : Enricher Rest).InOrder where
  passed := ⟨.nil,nofun⟩
  written := b.oldestWrite_le _ _
  output := rfl
  complete := Nat.le_zero.mp (b.oldestWrite_le _ _)

theorem exported_write (h : e.InOrder) (f : Flow Rest) {x : ℕ × (Lookup → CacheInterface)} (hx : x ∈ e.read) :
    (e.write f).exported x = e.exported x := by
  have hlt : x.1 < e.inputRing.written.length :=
    (h.passed.below x.1 (List.mem_map_of_mem hx)).trans_le h.written
  rw [exported, exported, write, Ring.write, List.getElem?_append_left hlt]

theorem InOrder.write (h : e.InOrder) (f : Flow Rest) : (e.write f).InOrder where
  passed := h.passed
  written := h.written.trans (by simp [Enricher.write, Ring.write])
  output := h.output.trans (List.filterMap_congr fun _ hx => (exported_write h f hx).symm)
  complete := h.complete

theorem written_exportTo (outputRing : Ring (Flow Rest)) (f : Option (Flow Rest)) :
    (exportTo outputRing f).written = outputRing.written ++ f.toList := by
  cases f <;> simp [exportTo, Ring.write]

theorem inputRing_next (e : Enricher Rest) (cache : Lookup → CacheInterface) :
    (e.next b cache).inputRing = e.inputRing := by
  unfold next
  split <;> rfl

theorem InOrder.next (h : e.InOrder) (cache : Lookup → CacheInterface) : (e.next b cache).InOrder := by
  unfold Enricher.next
  cases hread : e.inputRing.readFrom b e.reader with
  | wait => exact h
  | lost passed numEventsLost =>
    dsimp only
    refine ⟨h.passed.mono (Nat.le_add_right _ _),Ring.readFrom_lost hread,h.output,?_⟩
    have := h.complete
    dsimp only
    omega
  | event f =>
    have hget := Ring.readFrom_event hread
    dsimp only
    constructor
    · simpa [Ring.Read.log, Ring.Read.advance] using h.passed.log (.event f)
    · exact (List.getElem?_eq_some_iff.mp hget).1
    · rw [written_exportTo, h.output, List.filterMap_append]
      congr 1
      simp only [List.filterMap_cons, List.filterMap_nil, exported, hget, Option.bind_some]
      cases enrich cache f <;> rfl
    · have := h.complete
      simp only [List.length_append, List.length_singleton]
      omega

end Enricher

end Retina
