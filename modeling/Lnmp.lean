import Lnmp.Flow.Shutdown
import Lnmp.Flow.Recovery
import Lnmp.Flow.Ingestion
import Lnmp.Flow.VariableLength
import Lnmp.Flow.OutOfOrder
import Lnmp.Flow.Agreement
import Lnmp.Flow.Isolation
import Lnmp.Flow.OrphanBound
import Lnmp.Flow.StreamCodec
import Lnmp.Flow.CollectorQueue
import Lnmp.Monitoring.Confirmation
import Lnmp.Monitoring.OpenEvent
import Lnmp.Monitoring.Timeline
import Lnmp.Monitoring.Blackout
import Lnmp.Monitoring.Announcements
import Lnmp.Monitoring.Registry
import Lnmp.Flow.ExporterMap
import Lnmp.Topology.Refresh
import Lnmp.Topology.Reachability
import Lnmp.Topology.RouteOrder
import Lnmp.Topology.InferredDown
import Lnmp.Topology.ManualParents
import Lnmp.Topology.TelemetryRelay
import Lnmp.Sessions.Quota
import Lnmp.Sessions.Revocation
import Lnmp.Sessions.DriverSwitch
import Lnmp.Sessions.LoginLockout
import Lnmp.Alerts.RateLimit
import Lnmp.Alerts.Suppression
import Lnmp.Alerts.Election
import Lnmp.Sessions.Authorization
import Lnmp.Settings.FlowRule
import Lnmp.Flow.ExporterMapping
import Lnmp.Reports.ReportAgreement
import Lnmp.Reports.GapMeasure
import Lnmp.Reports.WindowOverlap
import Lnmp.Alerts.ChannelConfig
import Lnmp.Monitoring.CycleLedger
import Lnmp.Flow.Robustness
import Lnmp.Flow.Attribution
import Lnmp.Flow.FlowTimes
import Lnmp.Flow.V5RoundTrip
import Lnmp.Topology.Levels
import Lnmp.Sessions.WarmMigration
import Lnmp.Sessions.ClientAddress
import Lnmp.Alerts.Flapping
import Lnmp.Alerts.OutboundUrl
import Lnmp.Alerts.EventPayload
import Lnmp.Alerts.MaskRoundTrip
import Lnmp.Alerts.MaskHiding
import Lnmp.Monitoring.ProbeTargets
import Lnmp.Reports.FleetQuery
import Lnmp.Topology.RootCause
import Lnmp.Topology.Discovery
import Lnmp.Topology.BaselineRefresh
import Lnmp.Topology.HopProjection
import Lnmp.Reports.Incidents
import Lnmp.Reports.IncidentTimes
import Lnmp.Reports.IncidentPaths
import Lnmp.Reports.CsvCompleteness
import Lnmp.Reports.PdfAssets
import Lnmp.Alerts.KeyRotation
import Lnmp.Topology.TraceOutput
import Lnmp.Flow.InterfaceCharts
import Lnmp.Flow.FleetCharts
import Lnmp.Flow.Rankings
import Lnmp.Monitoring.PingOutput
import Lnmp.Monitoring.BaselineCache
import Lnmp.Sessions.UserAdministration
import Lnmp.Reports.EndpointStats
import Lnmp.Settings.SettingsSync
import Lnmp.Topology.EventStreams
import Lnmp.Alerts.DeliveryAccount
