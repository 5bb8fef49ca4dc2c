import VllmDcu.SessionHashes
import VllmDcu.HybridHit
import VllmDcu.StartupAdmission
import VllmDcu.SessionRefinement
import VllmDcu.KVLoadFailures
import VllmDcu.ReasoningParser
import VllmDcu.AllowedMask
import VllmDcu.LogitsMirror
import VllmDcu.ExpertWeights
import VllmDcu.TransferReports
import VllmDcu.StreamingSessions
import VllmDcu.DeltaRuns
import VllmDcu.ObjectStorage
import VllmDcu.CacheMirror
import VllmDcu.BroadcastRuns
import VllmDcu.GrammarTracking
import VllmDcu.SerialRoundTrip
import VllmDcu.EncoderCoverage
import VllmDcu.EncoderDecoderRuns
import VllmDcu.PriorityOrder
import VllmDcu.CommonCounts
import VllmDcu.CursorKeys
import VllmDcu.SlidingWindowHits
import VllmDcu.AlignRuns
import VllmDcu.ArcRefusals
import VllmDcu.BuddyBlocks
import VllmDcu.RingRuns
import VllmDcu.PinnedRuns
import VllmDcu.TrackingRuns
import VllmDcu.StopGroupings
import VllmDcu.NgramAgreement
import VllmDcu.DraftSteps
import VllmDcu.RebalancedMaps
import VllmDcu.SlotPlacement
import VllmDcu.ExpandedInputs
import VllmDcu.EncoderMirror
import VllmDcu.BadWords
import VllmDcu.RejectionSampler
