import TagTemplate.Main
import TagTemplate.Template.Arena
import TagTemplate.Proofs.Parts
import TagTemplate.Proofs.Move
import TagTemplate.Proofs.Numbering
import TagTemplate.Proofs.Reading
import TagTemplate.Proofs.Forest
import TagTemplate.Proofs.Adoption
import TagTemplate.Proofs.Mirroring
import TagTemplate.Proofs.Nesting
import TagTemplate.Proofs.Openings
import TagTemplate.Proofs.Tiling
import TagTemplate.Proofs.Placement
import TagTemplate.Proofs.Joining
import TagTemplate.Proofs.Outline
import TagTemplate.Proofs.Grafting
import TagTemplate.Proofs.Concatenation
import TagTemplate.Proofs.Fragments
import TagTemplate.Proofs.Words
import TagTemplate.Proofs.Alternatives
import TagTemplate.Proofs.Spelling
import TagTemplate.Proofs.Growth
import TagTemplate.Proofs.Unfolding
import TagTemplate.Proofs.RoundTrip
import TagTemplate.Proofs.Snapshots
import TagTemplate.Proofs.Descent
import TagTemplate.Proofs.Footprint
import TagTemplate.Proofs.Visits
import TagTemplate.Proofs.Scoping
import TagTemplate.Proofs.Dependence
import TagTemplate.Proofs.Pointing
import TagTemplate.Proofs.Presence
import TagTemplate.Proofs.Exclusion
import TagTemplate.Proofs.Verbatim
import TagTemplate.Proofs.Storage
import TagTemplate.Proofs.AllOrNothing
import TagTemplate.Proofs.Coherence
import TagTemplate.Proofs.Escaping
import TagTemplate.Proofs.Rounding
import TagTemplate.Proofs.Numerals
import TagTemplate.Proofs.Respelling
import TagTemplate.Proofs.IntegerOrder
import TagTemplate.Proofs.Attributes
import TagTemplate.Proofs.Locations
import TagTemplate.Proofs.Containment
import TagTemplate.Proofs.Headings
import TagTemplate.Proofs.Retrieval
import TagTemplate.Proofs.Operands
import TagTemplate.Proofs.References
import TagTemplate.Proofs.NearestDoubles
import TagTemplate.Proofs.NumberTexts
import TagTemplate.Proofs.Emptiness
import TagTemplate.Proofs.Occurrences
