import ProjectMemory.Api.Grounding
import ProjectMemory.Api.Labels
import ProjectMemory.Api.Membership
import ProjectMemory.Api.Outbox
import ProjectMemory.Api.Sessions
import ProjectMemory.Api.Updates
import ProjectMemory.Cag.Chain
import ProjectMemory.Cag.Coverage
import ProjectMemory.Cag.Drift
import ProjectMemory.Cag.Fallback
import ProjectMemory.Cag.ReduceHalting
import ProjectMemory.Cag.Stall
import ProjectMemory.Core.RetryAfter
import ProjectMemory.Eval.Consistency
import ProjectMemory.Eval.FixturePoints
import ProjectMemory.Eval.Tokens
import ProjectMemory.Ingestion.ChunkWindows
import ProjectMemory.Ingestion.EnsureCollection
import ProjectMemory.Ingestion.Normalizing
import ProjectMemory.Retrieval.CrossProject
import ProjectMemory.Retrieval.SealedState
import ProjectMemory.Workers.Deletion
import ProjectMemory.Workers.Recording
import ProjectMemory.Workers.Reruns
