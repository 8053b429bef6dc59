import Roadmap.Main
import Roadmap.Proofs.Calendar.Count
import Roadmap.Proofs.Outline.Blocks
import Roadmap.Proofs.Outline.Cut
import Roadmap.Proofs.Outline.Heading
import Roadmap.Proofs.Outline.Indent
import Roadmap.Proofs.Outline.LineEnds
import Roadmap.Proofs.Outline.Move
import Roadmap.Proofs.Outline.Rearranged
import Roadmap.Proofs.Plan.Conflict
import Roadmap.Proofs.Plan.Delay
import Roadmap.Proofs.Plan.Pushed
import Roadmap.Proofs.Plan.Rounds
import Roadmap.Proofs.Plan.Siblings
import Roadmap.Proofs.Service.Nesting
import Roadmap.Proofs.Service.Surfaces
import Roadmap.Proofs.Session.Coherence
import Roadmap.Proofs.Session.Failure
import Roadmap.Proofs.Session.Notice
import Roadmap.Proofs.Session.Outside
import Roadmap.Proofs.Session.Overwrite
import Roadmap.Proofs.Session.Owners
import Roadmap.Proofs.Session.Return
import Roadmap.Proofs.Session.Staleness
import Roadmap.Proofs.Session.Update
import Roadmap.Server
import Roadmap.Service.Tool
import Roadmap.Service.Web
import Roadmap.Session.Path
import Roadmap.Watcher
