import Mustache.Cursor
import Mustache.Engine
import Mustache.Proofs.Rendering.Plain
import Mustache.Proofs.Markup.RoundTrip
import Mustache.Proofs.Rendering.Limited
import Mustache.Proofs.Template.WellFormed
import Mustache.Proofs.Template.InnerText
import Mustache.Proofs.Rendering.Indentation
import Mustache.Proofs.Rendering.Sections
import Mustache.Proofs.Token.Restart
import Mustache.Proofs.Rendering.Endless
import Mustache.Proofs.Rendering.DepthLimit
import Mustache.Proofs.Rendering.LambdaEscaping
import Mustache.Proofs.Template.Extension
import Mustache.Proofs.Rendering.Reach
import Mustache.Proofs.Rendering.Hints
import Mustache.Proofs.Template.Joined
import Mustache.Proofs.Rendering.Cutting
import Mustache.Proofs.Rendering.Bystanders
import Mustache.Proofs.Rendering.Escaping
import Mustache.Proofs.Tag.LineEndings
import Mustache.Proofs.Template.LineEndings
import Mustache.Proofs.Token.Changes
import Mustache.Proofs.Token.Cursors
import Mustache.Proofs.Template.Matching
import Mustache.Proofs.Rendering.Estimate
import Mustache.Proofs.Engine.Registry
import Mustache.Proofs.Rendering.Recutting
import Mustache.Proofs.Rendering.Restoring
import Mustache.Proofs.Template.Positions
