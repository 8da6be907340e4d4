import FlowHub.A2.Execution
import FlowHub.Auth.Rotation
import FlowHub.Channels.Replacements
import FlowHub.Connectors.BatchIsolation
import FlowHub.Connectors.CollectionScan
import FlowHub.Connectors.ReadBack
import FlowHub.DataLayer.Exclusivity
import FlowHub.EntityWork.Evidence
import FlowHub.ExchangeRates.Authentication
import FlowHub.Formula.Comparisons
import FlowHub.Formula.Escapes
import FlowHub.FormulaMigration.FailClosed
import FlowHub.FormulaTranslator.Meaning
import FlowHub.Observations.Soundness
import FlowHub.Orders.Atomicity
import FlowHub.Orders.Conservation
import FlowHub.Orders.OncePerPage
import FlowHub.PricingAuthority.History
import FlowHub.PricingEvaluation.Replay
import FlowHub.PricingMatrix.Activation
import FlowHub.PricingMatrix.Evaluator
import FlowHub.PricingMatrix.Rounding
import FlowHub.PricingWorkspace.History
import FlowHub.PricingWorkspace.Reload
import FlowHub.ProductPricing.Reconciliation
import FlowHub.RateLimit.Accounting
import FlowHub.ReadEngine.Completeness
import FlowHub.ReadEngine.NewestObservation
import FlowHub.ShadowValidation.Sealing
import FlowHub.Sheets.Chain
import FlowHub.Source.Agreement
import FlowHub.Source.Classification
import FlowHub.Source.Duplicates
import FlowHub.SourceAcquisition.Schema
import FlowHub.Webhooks.ExactlyOnce
import FlowHub.Workspace.Authorization
import FlowHub.Workspace.Equality
import FlowHub.Workspace.Keys
import FlowHub.Workspace.Targets
import FlowHub.Workspace.UncertainApply
import FlowHub.WritePipeline.AtMostOnce
import FlowHub.WritePipeline.BatchHash
import FlowHub.WritePipeline.Outcomes
