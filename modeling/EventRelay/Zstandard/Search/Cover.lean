import EventRelay.Zstandard.Search.Single
import EventRelay.Zstandard.Search.Double
import EventRelay.Zstandard.Search.Chained

/-!
# Covering content by repetitions

A part of the content is covered by steps, each of which takes literals and
then a repetition.  After a repetition the distance before the latest is tried
at once.
-/

namespace EventRelay
namespace Zstandard
namespace Search

/-- The tables of a search that has found nothing. -/
def initialTables : Search → Tables
  | .single logarithm width _ => { long := .unused, short := .initial width logarithm }
  | .double long short => { long := .initial 8 long, short := .initial 5 short }
  | .chained _ _ width _ => { long := .unused, short := .initial width 17 }

/-- Look for a repetition from a place on. -/
def find (search : Search) (part : Part) (latest covered place : Nat) (tables : Tables) :
    Option Finding × Tables :=
  match search with
  | .single _ _ stride =>
      let (finding, short) := Single.find part latest covered place (place + stride)
        (stride - 1) (place + 128) tables.short
      (finding, { tables with short := short })
  | .double _ _ => Double.find part latest covered place 0 (place + 256) tables
  | .chained depth attempts _ thorough =>
      let (finding, short) := Chained.find part ⟨attempts, depth, thorough⟩ latest covered place
        tables.short
      (finding, { tables with short := short })

/-- Note places around a repetition that ends at a place. -/
def noteEnds (search : Search) (part : Part) (found stop : Nat) (tables : Tables) : Tables :=
  match search with
  | .single _ _ _ => { tables with short := Single.noteEnds part found stop tables.short }
  | .double _ _ => Double.noteEnds part found stop tables
  | .chained _ _ _ _ =>
      { tables with short := Chained.noteBetween part (found + 1) stop tables.short }

/-- Note a place at which the distance before the latest is repeated. -/
def noteRepeated (search : Search) (part : Part) (place size : Nat) (tables : Tables) : Tables :=
  match search with
  | .single _ _ _ => { tables with short := tables.short.note part.content place }
  | .double _ _ =>
      { long := tables.long.note part.content place
        short := tables.short.note part.content place }
  | .chained _ _ _ _ =>
      { tables with short := Chained.noteBetween part place (place + size) tables.short }

/-- The number of bytes at the end of a part that are not looked at after a
repetition. -/
def margin : Search → Nat
  | .single _ _ _ => 8
  | .double _ _ => 8
  | .chained _ _ _ _ => Chained.margin

/-- What a part of the content comes to. -/
structure Outcome where
  /-- The steps that cover the part but for its end. -/
  steps : List Step
  /-- The last distances. -/
  recent : Recent
  /-- The tables. -/
  tables : Tables

/-- Take repetitions of the distance before the latest that follow at once.
The steps already taken stand in front, last first. -/
def again (search : Search) (part : Part) :
    (fuel place : Nat) → (recent : Recent) → (tables : Tables) → (steps : List Step) →
      Nat × Recent × Tables × List Step
  | 0, place, recent, tables, steps => (place, recent, tables, steps)
  | fuel + 1, place, recent, tables, steps =>
      if place + search.margin ≤ part.stop && part.repeats recent.second place then
        let size := part.extent recent.second place
        again search part fuel (place + size) ⟨recent.second, recent.first⟩
          (search.noteRepeated part place size tables)
          ({ literals := 0, number := 1, size := size } :: steps)
      else (place, recent, tables, steps)

/-- Cover a part of the content from a place on, when it is covered up to
another.  The fuel must exceed the number of repetitions; the steps already
taken stand in front, last first. -/
def coverFrom (search : Search) (part : Part) :
    (fuel covered place : Nat) → (recent : Recent) → (tables : Tables) →
      (steps : List Step) → Outcome
  | 0, _, _, recent, tables, steps => ⟨steps.reverse, recent, tables⟩
  | fuel + 1, covered, place, recent, tables, steps =>
      match search.find part recent.first covered place tables with
      | (none, tables) => ⟨steps.reverse, recent, tables⟩
      | (some finding, tables) =>
          let recent := recent.after finding
          let step : Step := {
            literals := finding.start - covered
            number := finding.number
            size := finding.size }
          let place := finding.start + finding.size
          if place + search.margin ≤ part.stop then
            let tables := search.noteEnds part finding.place place tables
            let (place, recent, tables, steps) :=
              again search part (part.stop - place) place recent tables (step :: steps)
            coverFrom search part fuel place place recent tables steps
          else coverFrom search part fuel place place recent tables (step :: steps)

/-- The distance if it leads to bytes of the content, and what is left of it
otherwise. -/
def withinReach (reach distance : Nat) : Nat × Nat :=
  if reach < distance then (0, distance) else (distance, 0)

/-- Cover the part of the content from one place to another, with repetitions
from a window.  A distance that leads before the content is set aside, and comes
back when no other has taken its place. -/
def cover
    (search : Search)
    (window : Nat)
    (content : Array UInt8)
    (start stop : Nat)
    (recent : Recent)
    (tables : Tables) :
    Outcome :=
  let lowest := stop - min stop window
  let place := if start = lowest then start + 1 else start
  let (first, firstAside) := withinReach (min place window) recent.first
  let (second, secondAside) := withinReach (min place window) recent.second
  let outcome := coverFrom search ⟨content, lowest, stop⟩ (stop - start) start place
    ⟨first, second⟩ tables []
  let secondAside :=
    if firstAside ≠ 0 ∧ outcome.recent.first ≠ 0 then firstAside else secondAside
  let orAside (distance aside : Nat) : Nat := if distance = 0 then aside else distance
  { outcome with
    recent := ⟨orAside outcome.recent.first firstAside,
      orAside outcome.recent.second secondAside⟩ }

end Search
end Zstandard
end EventRelay
