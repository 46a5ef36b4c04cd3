import AwsMock.Sqs.Fidelity
import AwsMock.Sqs.ListingAgreement
import AwsMock.Sqs.Conservation
import AwsMock.Sqs.Redrive
import AwsMock.Sqs.ResetPass
import AwsMock.DynamoDb.Isolation
import AwsMock.DynamoDb.Counters
import AwsMock.DynamoDb.ReadYourWrites
import AwsMock.DynamoDb.Query
import AwsMock.Core.Signature
import AwsMock.Gateway.Pipelining
import AwsMock.Gateway.SubResources
import AwsMock.S3.Deletion
import AwsMock.ApiGateway.Authorization
import AwsMock.ApiGateway.PathTemplates
import AwsMock.S3.Addressing
import AwsMock.Scheduling.OneTimeTasks
import AwsMock.Ftp.Confinement
import AwsMock.Transfers.Pairing
import AwsMock.Applications.Dependencies
import AwsMock.Applications.Starting
import AwsMock.S3.Checksums
import AwsMock.Kms.Buffers
import AwsMock.Sns.Subscriptions
import AwsMock.SecretsManager.Interleaving
import AwsMock.SecretsManager.Stages
import AwsMock.Ftp.Authorization
import AwsMock.Ftp.UploadRuns
import AwsMock.Lambdas.Capacity
import AwsMock.Sns.Agreement
import AwsMock.Sns.FanOut
import AwsMock.Lambdas.Agreement
import AwsMock.Tagging
import AwsMock.ApiGateway.ResourceTrees
import AwsMock.Ssm.RoundTrip
import AwsMock.Lambdas.EventDelivery
import AwsMock.Lambdas.MeanDurations
import AwsMock.Cognito.Membership
import AwsMock.S3.ChunkedBodies
import AwsMock.S3.Ranges
import AwsMock.S3.Synchronization
import AwsMock.Core.Base64Check
import AwsMock.Core.Hmac
import AwsMock.Core.SrpUtils
import AwsMock.Sns.Documents
import AwsMock.Cognito.Documents
import AwsMock.Sqs.Batches
import AwsMock.Lambdas.Deletion
import AwsMock.Sqs.AttributePages
import AwsMock.Sqs.EntityRoundTrip
import AwsMock.Core.BackupUtils
import AwsMock.Core.QueryStrings
import AwsMock.Core.StreamCopier
import AwsMock.Core.DateTimeUtils
import AwsMock.Core.Utf8
import AwsMock.Core.SortedListings
import AwsMock.Scheduling.CronTasks
import AwsMock.Core.UrlEncoding
import AwsMock.DynamoDb.ExpressionLayout
import AwsMock.DynamoDb.EntityRoundTrip
