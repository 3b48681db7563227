import Caption.Main
import Caption.Markup.Recording
import Caption.Pipeline.Stage
import Caption.Registry.Change
import Caption.Proofs.Description.Retaining
import Caption.Proofs.Description.Succession
import Caption.Proofs.Markup.Grammar
import Caption.Proofs.Markup.Rereading
import Caption.Proofs.Pipeline.Repeating
import Caption.Proofs.Registry.Grounding
import Caption.Proofs.Registry.Hosting
import Caption.Proofs.Registry.Mirroring
import Caption.Proofs.Registry.Overtaking
import Caption.Proofs.Registry.Popping
import Caption.Proofs.Registry.Rendering
import Caption.Proofs.Registry.Toasting
import Caption.Proofs.Registry.Reordering
import Caption.Proofs.Registry.Bulleting
import Caption.Proofs.Description.Binding
import Caption.Proofs.Markup.Drawing
import Caption.Proofs.Markup.Visiting
import Caption.Proofs.Description.Revisiting
import Caption.Proofs.Registry.Overwriting
import Caption.Proofs.Markup.Failing
import Caption.Proofs.Markup.Defects
import Caption.Proofs.Markup.Replacing
import Caption.Proofs.Registry.Changing
import Caption.Proofs.Registry.Issuing
