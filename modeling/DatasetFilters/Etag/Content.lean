import DatasetFilters.Digest.Sha256
import DatasetFilters.Output.Basic

namespace DatasetFilters
namespace Content

/-- A text: its length, its octets, a separator. -/
def text (s : String) : Octets :=
  let bs := Octets.ofText s
  Octets.bigEndian 8 bs.length ++ bs ++ [0x1f]

def number (n : Nat) : Octets := Octets.bigEndian 8 n ++ [0x1f]

def flag : Option Bool → Octets
  | none => [0, 0x1f]
  | some false => [1, 0x1f]
  | some true => [2, 0x1f]

def dataset (d : DatasetRef) : Octets := text d.id ++ text d.edition ++ number d.version.toNat

/-- A list sorted, each member once. -/
def sorted (l : List String) : List String := dedupSorted (l.mergeSort fun a b => decide (a ≤ b))
where
  dedupSorted : List String → List String
    | [] => []
    | [a] => [a]
    | a :: b :: rest => if a = b then dedupSorted (b :: rest) else a :: dedupSorted (b :: rest)

def dimension (d : Dimension) : Octets :=
  let options := sorted d.options
  text d.name ++ number options.length ++ options.flatMap text

def dimensions (ds : List Dimension) : Octets := number ds.length ++ ds.flatMap dimension

def event (e : Event) : Octets := text e.kind.name ++ text (e.time.write Instant.tagFormat)

def events (es : List Event) : Octets := number es.length ++ es.flatMap event

def artefact : Option Artefact → Octets
  | none => number 0
  | some a => number 1 ++ text a.href ++ text a.size ++ text a.publicLink ++ text a.privateLink ++
    flag (some a.skipped)

end Content

/-- What can be observed of a blueprint, laid out as a sequence of fields whose lengths are written
before them. Options are sorted, since their order cannot be observed; dimensions keep their
order. -/
def Blueprint.content (b : Blueprint) : Octets :=
  0 :: (Content.text b.id ++ Content.dataset b.dataset ++ Content.text b.instanceId ++
    Content.text b.state.name ++ Content.flag b.published ++ Content.dimensions b.dimensions ++
    Content.events b.events ++ Content.text b.kind ++ Content.text (b.outputId.getD ""))

def Output.content (o : Output) : Octets :=
  1 :: (Content.text o.id ++ Content.text o.filterId ++ Content.dataset o.dataset ++
    Content.text o.instanceId ++ Content.text o.state.name ++ Content.flag o.published ++
    Content.dimensions o.dimensions ++ Content.events o.events ++ Content.text o.kind ++
    Content.artefact o.downloads.csv ++ Content.artefact o.downloads.xls)

/-- The tag of a document is the hash of its observable content, in hexadecimal. -/
def tagOf (content : Octets) : String := Octets.hex (Sha256.hash content)

def Blueprint.tag (b : Blueprint) : String := tagOf b.content

def Output.tag (o : Output) : String := tagOf o.content

end DatasetFilters
