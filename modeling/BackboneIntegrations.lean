import BackboneIntegrations.Intake.Backlog
import BackboneIntegrations.Intake.Gate
import BackboneIntegrations.Intake.Ledger
import BackboneIntegrations.Intake.Waits
import BackboneIntegrations.OAuth.Binding
import BackboneIntegrations.OAuth.Cadence
import BackboneIntegrations.OAuth.CallbackForm
import BackboneIntegrations.OAuth.CallbackPage
import BackboneIntegrations.OAuth.Carry
import BackboneIntegrations.OAuth.Claims
import BackboneIntegrations.OAuth.Completion
import BackboneIntegrations.OAuth.Coverage
import BackboneIntegrations.OAuth.Expiry
import BackboneIntegrations.OAuth.Foreign
import BackboneIntegrations.OAuth.Grammar
import BackboneIntegrations.OAuth.Granted
import BackboneIntegrations.OAuth.Honest
import BackboneIntegrations.OAuth.Identity
import BackboneIntegrations.OAuth.Isolation
import BackboneIntegrations.OAuth.Mirror
import BackboneIntegrations.OAuth.Outbound
import BackboneIntegrations.OAuth.Overrides
import BackboneIntegrations.OAuth.Recovery
import BackboneIntegrations.OAuth.Redirect
import BackboneIntegrations.OAuth.Resolution
import BackboneIntegrations.OAuth.Responses
import BackboneIntegrations.OAuth.Routes
import BackboneIntegrations.OAuth.Secrecy
import BackboneIntegrations.OAuth.Shape
import BackboneIntegrations.OAuth.StateToken
import BackboneIntegrations.OAuth.Transport
import BackboneIntegrations.OAuth.Verifier
import BackboneIntegrations.OAuth.Waits
