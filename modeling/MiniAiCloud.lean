import MiniAiCloud.FencingProofs
import MiniAiCloud.HistoryProofs
import MiniAiCloud.AttemptProofs
import MiniAiCloud.UsageProofs
import MiniAiCloud.LeaseProofs
import MiniAiCloud.CandidateProofs
import MiniAiCloud.OverbookingProofs
import MiniAiCloud.ReferenceProofs
import MiniAiCloud.DeletedBytesProofs
import MiniAiCloud.Publication
import MiniAiCloud.Quarantine
import MiniAiCloud.RoutingProofs
import MiniAiCloud.Memberships
import MiniAiCloud.Readiness
import MiniAiCloud.PullScan
import MiniAiCloud.Victims
import MiniAiCloud.EventStream
import MiniAiCloud.AutoscalerProofs
import MiniAiCloud.LogCoalescer
import MiniAiCloud.StreamUsage
import MiniAiCloud.Outbox
