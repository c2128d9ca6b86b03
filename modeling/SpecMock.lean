import SpecMock.Core.Discriminators
import SpecMock.Core.HeldValues
import SpecMock.Core.JsonText
import SpecMock.Core.KeptCompositions
import SpecMock.Core.MemberOrigins
import SpecMock.Core.OneSidedBounds
import SpecMock.Core.Pointers
import SpecMock.Core.Reachability
import SpecMock.Core.RefDepth
import SpecMock.Core.SchemaMeaning
import SpecMock.Core.SchemaStreams
import SpecMock.Core.StoreCounter
import SpecMock.Core.StoreLinearization
import SpecMock.Core.StoreListing
import SpecMock.Core.ValidatorRaces
import SpecMock.Library.Delimited
import SpecMock.Library.Scans
import SpecMock.Library.Template
import SpecMock.Library.Tokens
import SpecMock.Library.WorkList
import SpecMock.Runtime.AcceptHeader
import SpecMock.Runtime.AcceptNegotiation
import SpecMock.Runtime.AddressableActions
import SpecMock.Runtime.AlignedPaths
import SpecMock.Runtime.AutoRouting
import SpecMock.Runtime.BodilessOverrides
import SpecMock.Runtime.BoundTemplates
import SpecMock.Runtime.Callbacks
import SpecMock.Runtime.CatalogueCoverage
import SpecMock.Runtime.ChannelReferences
import SpecMock.Runtime.Coherence
import SpecMock.Runtime.ConcurrentResolve
import SpecMock.Runtime.Control
import SpecMock.Runtime.CreateConflicts
import SpecMock.Runtime.Gates
import SpecMock.Runtime.GenerationSeeds
import SpecMock.Runtime.GrpcBodies
import SpecMock.Runtime.GrpcCreates
import SpecMock.Runtime.GrpcFrames
import SpecMock.Runtime.GrpcMocks
import SpecMock.Runtime.GrpcTrailers
import SpecMock.Runtime.InventedIdentifiers
import SpecMock.Runtime.LoadedDocuments
import SpecMock.Runtime.LocationHeaders
import SpecMock.Runtime.MediaFamilies
import SpecMock.Runtime.Namespaces
import SpecMock.Runtime.NormalizedSchemas
import SpecMock.Runtime.OpenApiDocument
import SpecMock.Runtime.Overlay
import SpecMock.Runtime.PathIdentifiers
import SpecMock.Runtime.PointerAgreement
import SpecMock.Runtime.ProblemDetails
import SpecMock.Runtime.ProxiedMocks
import SpecMock.Runtime.QueryDecoding
import SpecMock.Runtime.RateLimit
import SpecMock.Runtime.RenderedPaths
import SpecMock.Runtime.Reset
import SpecMock.Runtime.RoutePrecedence
import SpecMock.Runtime.RouterScan
import SpecMock.Runtime.SeedSums
import SpecMock.Runtime.Seeding
import SpecMock.Runtime.SessionCap
import SpecMock.Runtime.SharedSessions
import SpecMock.Runtime.Shutdown
import SpecMock.Runtime.SidecarWarnings
import SpecMock.Runtime.SoundDocuments
import SpecMock.Runtime.StatusSchemas
import SpecMock.Runtime.TypeOrder
import SpecMock.Runtime.UnnamedSessions
import SpecMock.Runtime.Updates
import SpecMock.Runtime.UpstreamGuards
import SpecMock.Runtime.WebSocketRoutes
import SpecMock.Runtime.WireAnswers
import SpecMock.Runtime.XmlReading
