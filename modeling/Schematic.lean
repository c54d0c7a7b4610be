import Schematic.Main
import Schematic.Session
import Schematic.Proofs.Faithfulness
import Schematic.Proofs.Traceability
import Schematic.Proofs.Colouring.Agreement
import Schematic.Proofs.Colouring.Propagation
import Schematic.Proofs.Tidying
import Schematic.Proofs.Words
import Schematic.Proofs.PhysicalLines
import Schematic.Proofs.CommandLine
import Schematic.Proofs.RoundTrip
import Schematic.Proofs.Loading
import Schematic.Proofs.Presets.Reopening
import Schematic.Proofs.Redrawing
import Schematic.Proofs.RuleCheck.Dangling
import Schematic.Proofs.Switch.Acceptance
import Schematic.Proofs.Switch.Writing
import Schematic.Proofs.Switch.Precedence
import Schematic.Proofs.Naming.Resolution
import Schematic.Proofs.Saving
import Schematic.Proofs.Analysis.Directives
import Schematic.Proofs.Presets.Opening
import Schematic.Proofs.Json.Plain
import Schematic.Proofs.Analysis.Trimming
import Schematic.Proofs.Presets.Configurations
import Schematic.Proofs.Netlist.Suffixes
import Schematic.Proofs.Switch.Roles
import Schematic.Proofs.Netlist.Insertion
import Schematic.Proofs.Quantity
import Schematic.Proofs.DisjointSets.Calls
import Schematic.Proofs.Switch.Blame
import Schematic.Proofs.Junction.Edits
import Schematic.Proofs.Grid.Counting
import Schematic.Proofs.Grid.Rerounding
import Schematic.Proofs.Resaving
