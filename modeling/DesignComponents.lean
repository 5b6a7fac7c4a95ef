import DesignComponents.Figma.Svg
import DesignComponents.Machine
import DesignComponents.Main
import DesignComponents.Proofs.Attribute.Memory
import DesignComponents.Proofs.Intake.Read
import DesignComponents.Proofs.Script
import DesignComponents.Proofs.Source.Svg
import DesignComponents.Proofs.Target.ReadBack
import DesignComponents.Proofs.Template.Static
import DesignComponents.Settings.Fields
import DesignComponents.Source.Exchange
import DesignComponents.Target.Exchange
import DesignComponents.Worker.Handlers
import DesignComponents.Worker.Settle
import DesignComponents.Proofs.Number.Reading
import DesignComponents.Proofs.Attribute.Style
import DesignComponents.Proofs.Target.Filter
import DesignComponents.Proofs.Generation.Order
import DesignComponents.Proofs.Store
import DesignComponents.Proofs.Generation.Law
import DesignComponents.Proofs.Generation.Turns
import DesignComponents.Proofs.Generation.Alike
import DesignComponents.Proofs.Generation.Interleaving
import DesignComponents.Proofs.Intake.Pooled
import DesignComponents.Proofs.Store.Overflow
import DesignComponents.Proofs.Style.Extract
import DesignComponents.Proofs.Worker.Law
import DesignComponents.Proofs.Style.Rules
import DesignComponents.Proofs.Style.Reading
import DesignComponents.Proofs.Style.Written
import DesignComponents.Proofs.Style.Selection
import DesignComponents.Proofs.Component.Container
import DesignComponents.Proofs.Component.Styles
import DesignComponents.Proofs.Markup.Document
import DesignComponents.Proofs.Markup.Pass
import DesignComponents.Proofs.Markup.Shorten
import DesignComponents.Proofs.Markup.Eased
import DesignComponents.Proofs.Number.Hundredths
import DesignComponents.Proofs.Attribute.Rename
import DesignComponents.Proofs.Attribute.Sanitize
import DesignComponents.Proofs.Attribute.Document
import DesignComponents.Proofs.Project.Location
import DesignComponents.Proofs.Project.Reference
import DesignComponents.Proofs.Project.Assemble
import DesignComponents.Proofs.Markup.Clean
import DesignComponents.Proofs.Markup.Forest
import DesignComponents.Proofs.Markup.Balance
import DesignComponents.Proofs.Intake.Check
import DesignComponents.Proofs.Intake.Law
import DesignComponents.Proofs.Markup.Repair
import DesignComponents.Proofs.Style.Tidy
import DesignComponents.Proofs.Template.StyleObject
import DesignComponents.Proofs.Style.Property
import DesignComponents.Proofs.Component.Literal
import DesignComponents.Proofs.Figma.Canvas
import DesignComponents.Proofs.Project.Naming
import DesignComponents.Proofs.Style.ClassPool
import DesignComponents.Proofs.Command.Save
import DesignComponents.Proofs.Generation.Status
import DesignComponents.Proofs.Settings.Quiet
import DesignComponents.Proofs.Identifier.Slug
import DesignComponents.Proofs.Pattern.Walk
