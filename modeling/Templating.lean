import Templating.CommandLine.Basic
import Templating.Config.Reader
import Templating.Files.Tree
import Templating.Main
import Templating.Renderer.Basic
import Templating.Proofs.Confinement
import Templating.Proofs.Deferral
import Templating.Proofs.Expanding
import Templating.Proofs.Flavors
import Templating.Proofs.Gathering
import Templating.Proofs.Headings
import Templating.Proofs.Histories
import Templating.Proofs.Integers
import Templating.Proofs.Isolation
import Templating.Proofs.KeywordTags
import Templating.Proofs.Layers
import Templating.Proofs.LeftOpen
import Templating.Proofs.Merging
import Templating.Proofs.Moments
import Templating.Proofs.Naming
import Templating.Proofs.Paths
import Templating.Proofs.Policies
import Templating.Proofs.Precedence
import Templating.Proofs.Relevance
import Templating.Proofs.Saturation
import Templating.Proofs.Searching
import Templating.Proofs.Segments
import Templating.Proofs.Shortcuts
import Templating.Proofs.Unrolling
import Templating.Proofs.Verbatim
import Templating.Proofs.WellFormed
