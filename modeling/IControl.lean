import IControl.Client
import IControl.Context
import IControl.Device.Basic
import IControl.Device.Key
import IControl.Device.Store
import IControl.Duration
import IControl.Error
import IControl.Future
import IControl.Http.Session
import IControl.Http.Status
import IControl.Http.Target
import IControl.Json.Basic
import IControl.Json.Document
import IControl.Json.Printer
import IControl.Json.Reader
import IControl.Name
import IControl.Namespace
import IControl.Number.Basic
import IControl.Number.Double
import IControl.Number.Shortest
import IControl.Operation
import IControl.Record.Basic
import IControl.Record.Fields
import IControl.Record.Kind
import IControl.Record.Metadata
import IControl.Record.Parts
import IControl.Request.Basic
import IControl.Request.Builder
import IControl.Resource
import IControl.ResourcePath
import IControl.Service
import IControl.Settings
import IControl.Shape.Basic
import IControl.Shape.Decode
import IControl.Shape.Encode
import IControl.Table
import IControl.Text.Base64
import IControl.Text.Percent
import IControl.Text.Quoted
import IControl.Text.Trim
import IControl.Text.Unmarked
import IControl.Text.Utf8
import IControl.Transport
import IControl.Proofs.Json.Literal
import IControl.Proofs.Text.Percent
import IControl.Proofs.Text.Trim
import IControl.Proofs.Text.Utf8
import IControl.Proofs.Json.Document
import IControl.Proofs.Recording
import IControl.Proofs.Segment
import IControl.Proofs.Shape.Decode
import IControl.Proofs.Shape.Values
import IControl.Proofs.Shape.Order
import IControl.Proofs.Shape.RoundTrip
import IControl.Proofs.Record.RoundTrip
import IControl.Proofs.Device.Effects
import IControl.Proofs.Device.Identity
import IControl.Proofs.Request
import IControl.Proofs.Catalog
import IControl.Proofs.Device.Refinement
import IControl.Proofs.Routing
import IControl.Proofs.Device.Frame
import IControl.Proofs.Device.Isolation
import IControl.Proofs.Device.Persistence
import IControl.Proofs.Sending
import IControl.Proofs.Http.Session
import IControl.Proofs.Device.Assignment
import IControl.Proofs.Http.Url
import IControl.Proofs.Http.Target
import IControl.Proofs.Device.Deletion
import IControl.Proofs.Device.Resolution
import IControl.Proofs.Device.Rewriting
import IControl.Proofs.Device.Singleton
import IControl.Proofs.Device.Listing
import IControl.Proofs.Record.Open
import IControl.Proofs.Future
import IControl.Proofs.Context
import IControl.Proofs.Builder
import IControl.Proofs.Http.Address
import IControl.Proofs.Settings
import IControl.Proofs.Json.Grammar
import IControl.Proofs.Json.Reading
import IControl.Proofs.Http.Reply
import IControl.Proofs.ResourcePath
import IControl.Proofs.Device.Registration
